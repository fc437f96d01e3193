import Mathlib.Data.List.Sort
import N8n.Library.Loop
import N8n.Core.RunNode

/-! # Handing the output of a node to the next node

`WorkflowExecute.addNodeToBeExecuted` of
`workflow-execute.ts` with what it calls.
A node with several main inputs collects its data in `waitingExecution`, under
an index of its own for every run it waits for, and moves to
`nodeExecutionStack` once no input is `null` any more.
-/

namespace N8n.Core

variable {Item : Type}

/-- The part of `runExecutionData.executionData` the function changes.  A `waitingExecutionSource`
of `null` is the empty map. -/
structure ExecutionState (Item : Type) where
  nodeExecutionStack : List (IExecuteData Item)
  waitingExecution : IWaitingForExecution Item
  waitingExecutionSource : IWaitingForExecutionSource

/-- The arguments of one call. -/
structure Delivery (Item : Type) where
  connectionData : IConnection
  outputIndex : Nat
  parentNodeName : String
  nodeSuccessData : NodeOutput Item
  runIndex : Nat

namespace Delivery

/-- `nodeSuccessData === null ? null : nodeSuccessData[outputIndex]`. -/
def data (delivery : Delivery Item) : Slot (List Item) :=
  match delivery.nodeSuccessData with
  | none => .null
  | some outputs => SparseArray.read outputs delivery.outputIndex

/-- `index || undefined`. -/
def orUndefined (index : Nat) : Option Nat := if index = 0 then none else some index

def source (delivery : Delivery Item) : ISourceData where
  previousNode := delivery.parentNodeName
  previousNodeOutput := orUndefined delivery.outputIndex
  previousNodeRun := orUndefined delivery.runIndex

def firstSource (delivery : Delivery Item) : Slot ISourceData :=
  if delivery.nodeSuccessData.isNone then .null else .full delivery.source

/-- `nodeSuccessData[outputIndex].length === 0`. -/
def hasNoItems (delivery : Delivery Item) : Except Thrown Bool :=
  match delivery.data with
  | .full items => .ok items.isEmpty
  | _ => .error (.typeError "Cannot read properties of undefined (reading 'length')")

end Delivery

def forceInputNodeExecution (workflow : Workflow) : Bool := workflow.settings.executionOrder ≠ some "v1"

/-- `nodeExecutionStack[enqueueFn]`. -/
def enqueue (workflow : Workflow) (item : IExecuteData Item) (stack : List (IExecuteData Item)) :
    List (IExecuteData Item) :=
  if workflow.settings.executionOrder = some "v1" then item :: stack else stack ++ [item]

/-- `runData[connection.node][runIndex].data.main[connection.index]`, where it exists. -/
def outputOfRun (runData : IRunData Item) (runIndex : Nat) (connection : IConnection) : Slot (List Item) :=
  match ((runData.get? connection.node).bind (·[runIndex]?)).bind (·.data) with
  | none => .hole
  | some data => SparseArray.read ((data.get? .main).getD []) connection.index

def incomingConnectionIsEmpty (runData : IRunData Item) (runIndex : Nat) :
    List IConnection → Except Thrown Bool
  | [] => .ok true
  | inputConnection :: rest =>
    match outputOfRun runData runIndex inputConnection with
    | .hole => incomingConnectionIsEmpty runData runIndex rest
    | .null => .error (.typeError "Cannot read properties of null (reading 'length')")
    | .full items => if items.isEmpty then incomingConnectionIsEmpty runData runIndex rest else .ok false

/-! ## The waiting entries -/

/-- `entry.main`. -/
def mainOf {α : Type} (entry : Option (OrderedMap NodeConnectionType (List (Slot α)))) :
    Except Thrown (List (Slot α)) :=
  match entry.bind (·.get? .main) with
  | none => .error (.typeError "Cannot read properties of undefined")
  | some main => .ok main

/-- An entry that has nothing but main inputs. -/
def onlyMain {α : Type} (main : List (Slot α)) : OrderedMap NodeConnectionType (List (Slot α)) :=
  (∅ : OrderedMap NodeConnectionType (List (Slot α))).set .main main

/-- `table[nodeName][runIndex].main[index] = slot`. -/
def writeMain {α : Type} (table : OrderedMap String (OrderedMap Nat (OrderedMap NodeConnectionType (List (Slot α)))))
    (nodeName : String) (runIndex index : Nat) (slot : Slot α) :
    Except Thrown (OrderedMap String (OrderedMap Nat (OrderedMap NodeConnectionType (List (Slot α))))) :=
  let entry := (table.row nodeName).get? runIndex
  (mainOf entry).map fun main => table.set nodeName ((table.row nodeName).set runIndex
    ((entry.getD ∅).set .main (SparseArray.write main index slot)))

def prepareWaitingToExecution (state : ExecutionState Item) (nodeName : String)
    (numberOfConnections runIndex : Nat) : ExecutionState Item :=
  { state with
    waitingExecution := state.waitingExecution.set nodeName
      ((state.waitingExecution.row nodeName).set runIndex (onlyMain (List.replicate numberOfConnections .null)))
    waitingExecutionSource := state.waitingExecutionSource.set nodeName
      ((state.waitingExecutionSource.row nodeName).set runIndex
        (onlyMain (List.replicate numberOfConnections .null))) }

/-- A node that is not waiting yet gets an empty object. -/
def openWaiting (state : ExecutionState Item) (nodeName : String) : ExecutionState Item :=
  if state.waitingExecution.has nodeName then state
  else { state with
    waitingExecution := state.waitingExecution.set nodeName ∅
    waitingExecutionSource := state.waitingExecutionSource.set nodeName ∅ }

/-- The first of the entries that has no data at the input. -/
def findWaitingEntry (nodeWaiting : OrderedMap Nat (ITaskDataConnections Item)) (index : Nat) :
    List Nat → Except Thrown (Option Nat)
  | [] => .ok none
  | key :: rest => do
    let main ← mainOf (nodeWaiting.get? key)
    if (SparseArray.read main index).isFull then findWaitingEntry nodeWaiting index rest
    else .ok (some key)

/-- `Object.keys` lists integer keys in ascending order. -/
def objectKeys {α : Type} (nodeWaiting : OrderedMap Nat α) : List Nat := nodeWaiting.keys.insertionSort (· ≤ ·)

/-- Choose an entry, or create one, and write the data and its source into it. -/
def storeDelivery (state : ExecutionState Item) (numberOfInputs : Nat) (delivery : Delivery Item) :
    Except Thrown (Nat × ExecutionState Item) := do
  let nodeName := delivery.connectionData.node
  let index := delivery.connectionData.index
  let nodeWaiting := state.waitingExecution.row nodeName
  let found ← findWaitingEntry nodeWaiting index (objectKeys nodeWaiting)
  let waitingNodeIndex := found.getD nodeWaiting.size
  let prepared := if found.isSome then state
    else prepareWaitingToExecution state nodeName numberOfInputs waitingNodeIndex
  let waitingExecution ← writeMain prepared.waitingExecution nodeName waitingNodeIndex index delivery.data
  let waitingExecutionSource ←
    writeMain prepared.waitingExecutionSource nodeName waitingNodeIndex index delivery.firstSource
  .ok (waitingNodeIndex, { prepared with waitingExecution, waitingExecutionSource })

/-- Delete an entry, and the object of the node with its last one. -/
def removeWaiting (state : ExecutionState Item) (nodeName : String) (runIndex : Nat) : ExecutionState Item :=
  let nodeWaiting := (state.waitingExecution.row nodeName).erase runIndex
  let nodeWaitingSource := (state.waitingExecutionSource.row nodeName).erase runIndex
  if nodeWaiting.size = 0 then
    { state with
      waitingExecution := state.waitingExecution.erase nodeName
      waitingExecutionSource := state.waitingExecutionSource.erase nodeName }
  else
    { state with
      waitingExecution := state.waitingExecution.set nodeName nodeWaiting
      waitingExecutionSource := state.waitingExecutionSource.set nodeName nodeWaitingSource }

def waitingItem (workflow : Workflow) (state : ExecutionState Item) (nodeName : String) (runIndex : Nat) :
    IExecuteData Item where
  node := workflow.getNode nodeName
  data := ((state.waitingExecution.row nodeName).get? runIndex).getD ∅
  source := (state.waitingExecutionSource.row nodeName).get? runIndex

/-- All data exists, so the entry moves to the stack. -/
def moveToStack (workflow : Workflow) (state : ExecutionState Item) (nodeName : String) (runIndex : Nat) :
    ExecutionState Item :=
  let item := waitingItem workflow state nodeName runIndex
  removeWaiting { state with nodeExecutionStack := enqueue workflow item state.nodeExecutionStack } nodeName
    runIndex

/-- Data is still missing: the entry is prepared once more and gets its old data back, and the
source of this delivery. -/
def keepWaiting (state : ExecutionState Item) (numberOfInputs : Nat) (delivery : Delivery Item)
    (waitingNodeIndex : Nat) : Except Thrown (ExecutionState Item) := do
  let nodeName := delivery.connectionData.node
  let index := delivery.connectionData.index
  let main ← mainOf ((state.waitingExecution.row nodeName).get? waitingNodeIndex)
  let connectionDataArray := SparseArray.write main index delivery.data
  let prepared := prepareWaitingToExecution state nodeName numberOfInputs waitingNodeIndex
  let waitingExecutionSource ←
    writeMain prepared.waitingExecutionSource nodeName waitingNodeIndex index (.full delivery.source)
  .ok { prepared with
    waitingExecution := prepared.waitingExecution.set nodeName
      ((prepared.waitingExecution.row nodeName).set waitingNodeIndex (onlyMain connectionDataArray))
    waitingExecutionSource := waitingExecutionSource }

/-! ## Starting the nodes before the other inputs -/

def stackNodeName (item : IExecuteData Item) : Except Thrown String :=
  match item.node with
  | none => .error (.typeError "Cannot read properties of undefined (reading 'name')")
  | some node => .ok node.name

def checkOutputNodes (workflow : Workflow) (parentNodeName : String) : Except Thrown (List String) :=
  match workflow.connectionsBySourceNode.get? parentNodeName with
  | none => .error (.typeError "Cannot read properties of undefined (reading 'main')")
  | some nodeConnections =>
    .ok ((((nodeConnections.get? .main).getD []).flatMap (·.getD [])).map (·.node))

/-- `connectionsByDestinationNode[nodeName].main[0] ?? []` has no data in this run. -/
def firstInputIsEmpty (workflow : Workflow) (runData : IRunData Item) (runIndex : Nat) (nodeName : String) :
    Except Thrown Bool := do
  let inputs ← workflow.mainInputs nodeName
  incomingConnectionIsEmpty runData runIndex ((SparseArray.read inputs 0).getD [])

/-- Goes up from `inputNode` and remembers the last node that did not run yet. -/
def findNodeToAdd (checkOutputNodes executionStackNodes : List String) (ranAlready : String → Bool)
    (inputNode : String) (nodeToAdd : String) : List String → Option String
  | [] => some nodeToAdd
  | parentNode :: rest =>
    -- the parent node will be added anyway
    if inputNode ≠ parentNode ∧ parentNode ∈ checkOutputNodes then none
    else if parentNode ∈ executionStackNodes then none
    -- the output data of the parent node can be used
    else if ranAlready parentNode then some nodeToAdd
    else findNodeToAdd checkOutputNodes executionStackNodes ranAlready inputNode parentNode rest

/-- One turn of the loop over the connections into the node. -/
def forceInput (workflow : Workflow) (runData : IRunData Item) [Inhabited Item] (delivery : Delivery Item)
    (checkOutputNodes : List String) (nodeExecutionStack : List (IExecuteData Item))
    (inputData : IConnection) : Except Thrown (List (IExecuteData Item)) := do
  if inputData.node = delivery.parentNodeName then .ok nodeExecutionStack
  else
    let executionStackNodes ← nodeExecutionStack.mapM stackNodeName
    let isSibling ← (if inputData.node ∈ checkOutputNodes then
        (firstInputIsEmpty workflow runData delivery.runIndex inputData.node).map (!·)
      else .ok false)
    if isSibling ∨ inputData.node ∈ executionStackNodes ∨ runData.has inputData.node ∨
        ¬forceInputNodeExecution workflow then .ok nodeExecutionStack
    else
      let parentNodes := (workflow.getParentNodes inputData.node ++ [inputData.node]).reverse
      let found := findNodeToAdd checkOutputNodes executionStackNodes runData.has inputData.node
        inputData.node parentNodes
      -- a missing name is looked up as the key "undefined"
      let isBelow := delivery.parentNodeName ∈ workflow.getParentNodes (found.getD "undefined")
      let withoutData ← (if isBelow then delivery.hasNoItems else .ok false)
      match if withoutData then none else found with
      | none => .ok nodeExecutionStack
      | some nodeToAdd =>
        let addEmptyItem ← (if workflow.connectionsByDestinationNode.has nodeToAdd then
            firstInputIsEmpty workflow runData delivery.runIndex nodeToAdd
          else .ok true)
        if addEmptyItem then
          .ok (enqueue workflow
            { node := workflow.getNode nodeToAdd
              data := onlyMain [.full [default]]
              source := some (onlyMain [.full delivery.source]) } nodeExecutionStack)
        else .ok nodeExecutionStack

/-- The first time a node waits, the nodes that its other inputs depend on are started. -/
def forceInputs (workflow : Workflow) (runData : IRunData Item) [Inhabited Item] (delivery : Delivery Item)
    (nodeExecutionStack : List (IExecuteData Item)) : Except Thrown (List (IExecuteData Item)) := do
  let outputNodes ← checkOutputNodes workflow delivery.parentNodeName
  let inputs ← workflow.mainInputs delivery.connectionData.node
  (inputs.flatMap (·.getD [])).foldlM (forceInput workflow runData delivery outputNodes) nodeExecutionStack

/-! ## The function -/

/-- A node with one input needs no other data. -/
def directItem (workflow : Workflow) (delivery : Delivery Item) : IExecuteData Item where
  node := workflow.getNode delivery.connectionData.node
  data := onlyMain (SparseArray.write (List.replicate (delivery.connectionData.index + 1) .null)
    delivery.connectionData.index delivery.data)
  source := some (onlyMain [.full delivery.source])

def addNodeToBeExecuted (workflow : Workflow) (runData : IRunData Item) [Inhabited Item]
    (state : ExecutionState Item) (delivery : Delivery Item) : Except Thrown (ExecutionState Item) := do
  let nodeName := delivery.connectionData.node
  let inputs ← workflow.mainInputs nodeName
  if 1 < inputs.length then
    let nodeWasWaiting := state.waitingExecution.has nodeName
    let (waitingNodeIndex, stored) ← storeDelivery (openWaiting state nodeName) inputs.length delivery
    let main ← mainOf ((stored.waitingExecution.row nodeName).get? waitingNodeIndex)
    if main.any Slot.isNull then
      let nodeExecutionStack ← (if nodeWasWaiting then .ok stored.nodeExecutionStack
        else forceInputs workflow runData delivery stored.nodeExecutionStack)
      keepWaiting { stored with nodeExecutionStack := nodeExecutionStack } inputs.length delivery waitingNodeIndex
    else .ok (moveToStack workflow stored nodeName waitingNodeIndex)
  else
    let item := directItem workflow delivery
    .ok { state with nodeExecutionStack := enqueue workflow item state.nodeExecutionStack }

/-! ## What the operations on the waiting entries do -/

variable {α : Type}

@[simp] theorem get?_onlyMain (main : List (Slot α)) : (onlyMain main).get? .main = some main :=
  OrderedMap.get?_set_self _ _ _

theorem mainOf_eq_ok {entry : Option (OrderedMap NodeConnectionType (List (Slot α)))}
    {main : List (Slot α)} (returns : mainOf entry = .ok main) :
    ∃ found, entry = some found ∧ found.get? .main = some main := by
  rw [mainOf] at returns
  split at returns
  · cases returns
  · rename_i isMain
    cases returns
    exact Option.bind_eq_some_iff.mp isMain

theorem writeMain_inv
    {table written : OrderedMap String (OrderedMap Nat (OrderedMap NodeConnectionType (List (Slot α))))}
    {nodeName : String} {runIndex index : Nat} {slot : Slot α}
    (returns : writeMain table nodeName runIndex index slot = .ok written) :
    ∃ entry main, (table.row nodeName).get? runIndex = some entry ∧ entry.get? .main = some main ∧
      written = table.set nodeName
        ((table.row nodeName).set runIndex (entry.set .main (SparseArray.write main index slot))) := by
  rw [writeMain] at returns
  cases isMain : mainOf ((table.row nodeName).get? runIndex) with
  | error error =>
    rw [isMain] at returns
    cases returns
  | ok main =>
    rw [isMain] at returns
    cases returns
    obtain ⟨entry, found, mainFound⟩ := mainOf_eq_ok isMain
    exact ⟨entry, main, found, mainFound, by rw [found]; rfl⟩

/-- The first entry, by ascending index, that has no data at the input. -/
structure NextOpen (nodeWaiting : OrderedMap Nat (ITaskDataConnections Item)) (index key : Nat)
    (main : List (Slot (List Item))) : Prop where
  found : ∃ entry, nodeWaiting.get? key = some entry ∧ entry.get? .main = some main
  isOpen : (SparseArray.read main index).isFull = false
  before : ∀ earlier entry, nodeWaiting.get? earlier = some entry → earlier < key →
    ∃ main, entry.get? .main = some main ∧ (SparseArray.read main index).isFull = true

def AllTaken (nodeWaiting : OrderedMap Nat (ITaskDataConnections Item)) (index : Nat) : Prop :=
  ∀ key entry, nodeWaiting.get? key = some entry →
    ∃ main, entry.get? .main = some main ∧ (SparseArray.read main index).isFull = true

theorem findWaitingEntry_none {nodeWaiting : OrderedMap Nat (ITaskDataConnections Item)} {index : Nat}
    {keys : List Nat} (returns : findWaitingEntry nodeWaiting index keys = .ok none) :
    ∀ key ∈ keys, ∀ entry, nodeWaiting.get? key = some entry →
      ∃ main, entry.get? .main = some main ∧ (SparseArray.read main index).isFull = true := by
  induction keys with
  | nil =>
    intro key member
    cases member
  | cons first rest ih =>
    rw [findWaitingEntry] at returns
    obtain ⟨main, isMain, rest⟩ := Loop.bind_inv returns
    obtain ⟨entry, found, mainFound⟩ := mainOf_eq_ok isMain
    split at rest
    · rename_i isFull
      intro key member other otherFound
      cases List.mem_cons.mp member with
      | inl isFirst =>
        rw [isFirst, found] at otherFound
        cases otherFound
        exact ⟨main, mainFound, isFull⟩
      | inr inRest => exact ih rest key inRest other otherFound
    · cases rest

theorem findWaitingEntry_some {nodeWaiting : OrderedMap Nat (ITaskDataConnections Item)} {index key : Nat}
    {keys : List Nat} (sorted : keys.Pairwise (· ≤ ·)) (listed : ∀ key ∈ nodeWaiting.keys, key ∈ keys)
    (returns : findWaitingEntry nodeWaiting index keys = .ok (some key)) :
    ∃ main, NextOpen nodeWaiting index key main := by
  -- the entries that are not in the list any more have data
  have search : ∀ keys : List Nat, keys.Pairwise (· ≤ ·) →
      (∀ other entry, nodeWaiting.get? other = some entry → other ∉ keys →
        ∃ main, entry.get? .main = some main ∧ (SparseArray.read main index).isFull = true) →
      findWaitingEntry nodeWaiting index keys = .ok (some key) →
        ∃ main, NextOpen nodeWaiting index key main := by
    intro keys
    induction keys with
    | nil =>
      intro _ _ returns
      cases returns
    | cons first rest ih =>
      intro sorted taken returns
      rw [findWaitingEntry] at returns
      obtain ⟨main, isMain, further⟩ := Loop.bind_inv returns
      obtain ⟨entry, found, mainFound⟩ := mainOf_eq_ok isMain
      split at further
      · rename_i isFull
        refine ih sorted.of_cons (fun other otherEntry otherFound notInRest => ?_) further
        by_cases same : other = first
        · rw [same, found] at otherFound
          cases otherFound
          exact ⟨main, mainFound, isFull⟩
        · exact taken other otherEntry otherFound (by simp [same, notInRest])
      · rename_i notFull
        cases further
        refine ⟨main, ⟨entry, found, mainFound⟩, by simpa using notFull, ?_⟩
        intro earlier earlierEntry earlierFound isEarlier
        refine taken earlier earlierEntry earlierFound fun member => ?_
        cases List.mem_cons.mp member with
        | inl same => omega
        | inr inRest =>
          have := List.rel_of_pairwise_cons sorted inRest
          omega
  refine search keys sorted (fun other entry found notListed => ?_) returns
  exact absurd (listed other (OrderedMap.mem_keys.mpr ⟨entry, OrderedMap.get?_eq_some.mp found⟩)) notListed

variable {key : Nat}

theorem mem_objectKeys {nodeWaiting : OrderedMap Nat α} :
    key ∈ objectKeys nodeWaiting ↔ key ∈ nodeWaiting.keys := List.mem_insertionSort _

theorem sorted_objectKeys (nodeWaiting : OrderedMap Nat α) :
    (objectKeys nodeWaiting).Pairwise (· ≤ ·) := List.pairwise_insertionSort _ _

theorem enqueue_perm (workflow : Workflow) (item : IExecuteData Item) (stack : List (IExecuteData Item)) :
    (enqueue workflow item stack).Perm (item :: stack) := by
  rw [enqueue]
  split
  · exact List.Perm.refl _
  · exact List.perm_append_singleton item stack

/-- Every item the stack has more has a single main input. -/
def AddsStarters (stack next : List (IExecuteData Item)) : Prop :=
  ∃ added, next.Perm (added ++ stack) ∧
    ∀ item ∈ added, ∃ slot, item.data.get? .main = some [slot]

theorem AddsStarters.refl (stack : List (IExecuteData Item)) : AddsStarters stack stack :=
  ⟨[], List.Perm.refl _, by simp⟩

theorem AddsStarters.trans {first second third : List (IExecuteData Item)}
    (left : AddsStarters first second) (right : AddsStarters second third) : AddsStarters first third := by
  obtain ⟨added, perm, single⟩ := left
  obtain ⟨later, laterPerm, laterSingle⟩ := right
  refine ⟨later ++ added, ?_, fun item member => ?_⟩
  · rw [List.append_assoc]
    exact laterPerm.trans (perm.append_left later)
  · cases List.mem_append.mp member with
    | inl isLater => exact laterSingle item isLater
    | inr isAdded => exact single item isAdded

variable {workflow : Workflow} {runData : IRunData Item} {delivery : Delivery Item}

theorem forceInput_adds [Inhabited Item] {outputNodes : List String} {stack next : List (IExecuteData Item)}
    {inputData : IConnection} (returns : forceInput workflow runData delivery outputNodes stack inputData = .ok next) :
    AddsStarters stack next := by
  rw [forceInput] at returns
  split at returns
  · cases returns
    exact .refl stack
  obtain ⟨stackNodes, _, returns⟩ := Loop.bind_inv returns
  obtain ⟨isSibling, _, returns⟩ := Loop.bind_inv returns
  split at returns
  · cases returns
    exact .refl stack
  dsimp only at returns
  obtain ⟨withoutData, _, returns⟩ := Loop.bind_inv returns
  split at returns
  · cases returns
    exact .refl stack
  rename_i nodeToAdd _
  obtain ⟨addEmptyItem, _, returns⟩ := Loop.bind_inv returns
  split at returns
  · cases returns
    exact ⟨[_], enqueue_perm workflow _ stack, by simp⟩
  · cases returns
    exact .refl stack

theorem forceInputs_adds [Inhabited Item] {stack next : List (IExecuteData Item)}
    (returns : forceInputs workflow runData delivery stack = .ok next) : AddsStarters stack next := by
  obtain ⟨outputNodes, _, returns⟩ := Loop.bind_inv returns
  obtain ⟨inputs, _, returns⟩ := Loop.bind_inv returns
  exact Loop.foldlM_preserves (AddsStarters stack)
    (fun _ _ _ _ before turn => before.trans (forceInput_adds turn)) (.refl stack) returns

/-! ## The rows of the two tables -/

/-- `next` differs from `state` at one entry of the node, which `cells` has in `next`. -/
structure ChangesEntry (state next : ExecutionState Item) (nodeName : String) (key : Nat)
    (cells : OrderedMap Nat (ITaskDataConnections Item)) : Prop where
  waiting : ∀ name, next.waitingExecution.row name =
    if name = nodeName then cells else state.waitingExecution.row name
  sources : ∀ name other entry, (next.waitingExecution.row name).get? other = some entry →
    name ≠ nodeName ∨ other ≠ key → (next.waitingExecutionSource.row name).get? other =
      (state.waitingExecutionSource.row name).get? other

theorem ChangesEntry.trans {first second third : ExecutionState Item} {nodeName : String}
    {cells cells' : OrderedMap Nat (ITaskDataConnections Item)} (left : ChangesEntry first second nodeName key cells)
    (right : ChangesEntry second third nodeName key cells')
    (agree : ∀ other entry, other ≠ key → cells'.get? other = some entry → cells.get? other = some entry) :
    ChangesEntry first third nodeName key cells' := by
  refine ⟨fun name => ?_, fun name other entry found differs => ?_⟩
  · rw [right.waiting]
    split
    · rfl
    · rename_i different
      rw [left.waiting, if_neg different]
  · rw [right.sources name other entry found differs]
    refine left.sources name other entry ?_ differs
    rw [right.waiting] at found
    rw [left.waiting]
    by_cases same : name = nodeName
    · rw [if_pos same] at found ⊢
      exact agree other entry (differs.resolve_left (not_not_intro same)) found
    · rw [if_neg same] at found ⊢
      rwa [left.waiting, if_neg same] at found

theorem has_of_get?_row {ν : Type} {table : OrderedMap String (OrderedMap Nat ν)} {name : String} {entry : ν}
    (found : (table.row name).get? key = some entry) : table.has name = true := by
  rw [OrderedMap.has]
  cases isRow : table.get? name with
  | some cells => rfl
  | none =>
    rw [OrderedMap.row_of_get?_eq_none isRow] at found
    cases found

theorem openWaiting_changes (state : ExecutionState Item) (nodeName : String) (key : Nat) :
    ChangesEntry state (openWaiting state nodeName) nodeName key (state.waitingExecution.row nodeName) := by
  have rows : ∀ name, (openWaiting state nodeName).waitingExecution.row name =
      state.waitingExecution.row name := by
    intro name
    rw [openWaiting]
    split
    · rfl
    · rename_i absent
      rw [OrderedMap.row_set]
      split
      · rename_i same
        rw [same, OrderedMap.row_of_get?_eq_none (by simpa [OrderedMap.has] using absent)]
      · rfl
  refine ⟨fun name => ?_, fun name other entry found _ => ?_⟩
  · rw [rows]
    split
    · rename_i same
      rw [same]
    · rfl
  · rw [rows] at found
    rw [openWaiting]
    split
    · rfl
    · rename_i absent
      rw [OrderedMap.row_set, if_neg]
      intro same
      exact absent (has_of_get?_row (same ▸ found))

theorem removeWaiting_changes (state : ExecutionState Item) (nodeName : String) (runIndex : Nat) :
    ChangesEntry state (removeWaiting state nodeName runIndex) nodeName runIndex
      ((state.waitingExecution.row nodeName).erase runIndex) := by
  rw [removeWaiting]
  split
  · rename_i noneLeft
    have isEmpty : (state.waitingExecution.row nodeName).erase runIndex = ∅ :=
      OrderedMap.ext_entries (List.length_eq_zero_iff.mp noneLeft)
    refine ⟨fun name => ?_, fun name other entry found _ => ?_⟩
    · rw [OrderedMap.row_erase, isEmpty]
    · rw [OrderedMap.row_erase] at found ⊢
      split at found
      · cases found
      · rename_i different
        rw [if_neg different]
  · refine ⟨fun name => OrderedMap.row_set _ _ _ _, fun name other entry _ differs => ?_⟩
    rw [OrderedMap.row_set]
    split
    · rename_i same
      rw [OrderedMap.get?_erase_of_ne _ (differs.resolve_left (not_not_intro same)), same]
    · rfl

theorem stack_removeWaiting (state : ExecutionState Item) (nodeName : String) (runIndex : Nat) :
    (removeWaiting state nodeName runIndex).nodeExecutionStack = state.nodeExecutionStack := by
  rw [removeWaiting]
  split <;> rfl

/-! ## One call for a node with several inputs -/

/-- The entry that takes the data: its index and its inputs and sources before it does. -/
inductive Chosen (state : ExecutionState Item) (numberOfInputs : Nat) (delivery : Delivery Item) :
    Nat → List (Slot (List Item)) → List (Slot ISourceData) → Prop
  | waiting {key : Nat} {main : List (Slot (List Item))} {sourceEntry : ITaskDataConnectionsSource}
      {sourceMain : List (Slot ISourceData)}
      (nextOpen : NextOpen (state.waitingExecution.row delivery.connectionData.node)
        delivery.connectionData.index key main)
      (sourceFound : (state.waitingExecutionSource.row delivery.connectionData.node).get? key = some sourceEntry)
      (sourceMainFound : sourceEntry.get? .main = some sourceMain) :
      Chosen state numberOfInputs delivery key main sourceMain
  | new (allTaken : AllTaken (state.waitingExecution.row delivery.connectionData.node)
        delivery.connectionData.index) :
      Chosen state numberOfInputs delivery (state.waitingExecution.row delivery.connectionData.node).size
        (List.replicate numberOfInputs .null) (List.replicate numberOfInputs .null)

/-- The state after the data and its source are written into the chosen entry. -/
structure Stored (state next : ExecutionState Item) (delivery : Delivery Item) (key : Nat)
    (main : List (Slot (List Item))) (sourceMain : List (Slot ISourceData))
    (entry : ITaskDataConnections Item) (sourceEntry : ITaskDataConnectionsSource) : Prop where
  data : entry.get? .main = some (SparseArray.write main delivery.connectionData.index delivery.data)
  source : sourceEntry.get? .main =
    some (SparseArray.write sourceMain delivery.connectionData.index delivery.firstSource)
  sourceFound :
    (next.waitingExecutionSource.row delivery.connectionData.node).get? key = some sourceEntry
  stack : next.nodeExecutionStack = state.nodeExecutionStack
  changes : ChangesEntry state next delivery.connectionData.node key
    ((state.waitingExecution.row delivery.connectionData.node).set key entry)

variable {state next : ExecutionState Item}

theorem storeDelivery_inv {numberOfInputs key : Nat}
    (returns : storeDelivery state numberOfInputs delivery = .ok (key, next)) :
    ∃ main sourceMain entry sourceEntry, Chosen state numberOfInputs delivery key main sourceMain ∧
      Stored state next delivery key main sourceMain entry sourceEntry := by
  rw [storeDelivery] at returns
  obtain ⟨found, search, returns⟩ := Loop.bind_inv returns
  obtain ⟨waitingExecution, dataWritten, returns⟩ := Loop.bind_inv returns
  obtain ⟨waitingExecutionSource, sourceWritten, returns⟩ := Loop.bind_inv returns
  cases returns
  obtain ⟨oldEntry, main, oldFound, isMain, rfl⟩ := writeMain_inv dataWritten
  obtain ⟨oldSource, sourceMain, oldSourceFound, isSourceMain, rfl⟩ := writeMain_inv sourceWritten
  refine ⟨main, sourceMain, oldEntry.set .main _, oldSource.set .main _, ?_,
    OrderedMap.get?_set_self _ _ _, OrderedMap.get?_set_self _ _ _, ?_, ?_, ?_, ?_⟩
  · cases found with
    | some key =>
      obtain ⟨openMain, nextOpen⟩ := findWaitingEntry_some (sorted_objectKeys _)
        (fun _ member => mem_objectKeys.mpr member) search
      obtain ⟨entry, entryFound, entryMain⟩ := nextOpen.found
      obtain rfl : entry = oldEntry := Option.some.inj (entryFound.symm.trans oldFound)
      obtain rfl : openMain = main := Option.some.inj (entryMain.symm.trans isMain)
      exact .waiting nextOpen oldSourceFound isSourceMain
    | none =>
      have allTaken : AllTaken (state.waitingExecution.row delivery.connectionData.node)
          delivery.connectionData.index := by
        intro key entry entryFound
        have listed := OrderedMap.mem_keys.mpr ⟨entry, OrderedMap.get?_eq_some.mp entryFound⟩
        exact findWaitingEntry_none search key (mem_objectKeys.mpr listed) entry entryFound
      simp only [Option.isSome_none, Bool.false_eq_true, if_false, prepareWaitingToExecution,
        OrderedMap.row_set, if_true, Option.getD_none, OrderedMap.get?_set_self, Option.some.injEq]
        at oldFound oldSourceFound
      subst oldFound oldSourceFound
      rw [get?_onlyMain, Option.some.injEq] at isMain isSourceMain
      subst isMain isSourceMain
      exact .new allTaken
  · simp [OrderedMap.row_set]
  · cases found <;> rfl
  · intro name
    cases found with
    | some key => exact OrderedMap.row_set _ _ _ _
    | none =>
      show OrderedMap.row (OrderedMap.set _ _ _) name = _
      rw [OrderedMap.row_set]
      by_cases same : name = delivery.connectionData.node
      · simp [same, prepareWaitingToExecution, OrderedMap.row_set]
      · simp [same, prepareWaitingToExecution, OrderedMap.row_set]
  · intro name other entry _ differs
    show (OrderedMap.row (OrderedMap.set _ _ _) name).get? other = _
    rw [OrderedMap.row_set]
    by_cases same : name = delivery.connectionData.node
    · have otherKey := differs.resolve_left (not_not_intro same)
      rw [if_pos same, OrderedMap.get?_set_of_ne _ _ otherKey, same]
      cases found with
      | some key => rfl
      | none =>
        have differentKey : other ≠ (state.waitingExecution.row delivery.connectionData.node).size := otherKey
        simp [prepareWaitingToExecution, OrderedMap.row_set, OrderedMap.get?_set_of_ne _ _ differentKey]
    · rw [if_neg same]
      cases found with
      | some key => rfl
      | none => simp [prepareWaitingToExecution, OrderedMap.row_set, same]

theorem keepWaiting_inv {numberOfInputs key : Nat} {entry : ITaskDataConnections Item}
    {main : List (Slot (List Item))}
    (found : (state.waitingExecution.row delivery.connectionData.node).get? key = some entry)
    (isMain : entry.get? .main = some main) (returns : keepWaiting state numberOfInputs delivery key = .ok next) :
    ∃ sourceEntry, sourceEntry.get? .main = some (SparseArray.write (List.replicate numberOfInputs .null)
        delivery.connectionData.index (.full delivery.source)) ∧
      (next.waitingExecutionSource.row delivery.connectionData.node).get? key = some sourceEntry ∧
      next.nodeExecutionStack = state.nodeExecutionStack ∧
      ChangesEntry state next delivery.connectionData.node key
        ((state.waitingExecution.row delivery.connectionData.node).set key
          (onlyMain (SparseArray.write main delivery.connectionData.index delivery.data))) := by
  obtain ⟨connectionDataArray, isArray, returns⟩ := Loop.bind_inv returns
  obtain ⟨arrayEntry, arrayFound, arrayMain⟩ := mainOf_eq_ok isArray
  obtain rfl : arrayEntry = entry := Option.some.inj (arrayFound.symm.trans found)
  obtain rfl : connectionDataArray = main := Option.some.inj (arrayMain.symm.trans isMain)
  obtain ⟨waitingExecutionSource, sourceWritten, returns⟩ := Loop.bind_inv returns
  obtain ⟨oldSource, sourceMain, oldSourceFound, isSourceMain, rfl⟩ := writeMain_inv sourceWritten
  -- the sources were just prepared anew
  simp only [prepareWaitingToExecution, OrderedMap.row_set, if_true, OrderedMap.get?_set_self,
    Option.some.injEq] at oldSourceFound
  subst oldSourceFound
  rw [get?_onlyMain, Option.some.injEq] at isSourceMain
  subst isSourceMain
  cases returns
  refine ⟨(onlyMain (List.replicate numberOfInputs .null)).set .main _, OrderedMap.get?_set_self _ _ _,
    ?_, rfl, ?_, ?_⟩
  · rw [OrderedMap.row_set, if_pos rfl, OrderedMap.get?_set_self]
  · intro name
    rw [OrderedMap.row_set]
    by_cases same : name = delivery.connectionData.node
    · simp [same, prepareWaitingToExecution, OrderedMap.row_set]
    · simp [same, prepareWaitingToExecution, OrderedMap.row_set]
  · intro name other otherEntry _ differs
    rw [OrderedMap.row_set]
    by_cases same : name = delivery.connectionData.node
    · have otherKey := differs.resolve_left (not_not_intro same)
      simp [same, prepareWaitingToExecution, OrderedMap.row_set, OrderedMap.get?_set_of_ne _ _ otherKey]
    · simp [same, prepareWaitingToExecution, OrderedMap.row_set]

/-- The chosen entry moves to the stack, or it takes the data and waits on. -/
inductive Outcome (workflow : Workflow) (state next : ExecutionState Item) (numberOfInputs : Nat)
    (delivery : Delivery Item) (key : Nat) (main : List (Slot (List Item)))
    (sourceMain : List (Slot ISourceData)) : Prop
  | moved {item : IExecuteData Item} {sourceEntry : ITaskDataConnectionsSource}
      (noneMissing : Slot.null ∉ SparseArray.write main delivery.connectionData.index delivery.data)
      (node : item.node = workflow.getNode delivery.connectionData.node)
      (data : item.data.get? .main = some (SparseArray.write main delivery.connectionData.index delivery.data))
      (isSource : item.source = some sourceEntry)
      (source : sourceEntry.get? .main =
        some (SparseArray.write sourceMain delivery.connectionData.index (.full delivery.source)))
      (stack : next.nodeExecutionStack.Perm (item :: state.nodeExecutionStack))
      (changes : ChangesEntry state next delivery.connectionData.node key
        ((state.waitingExecution.row delivery.connectionData.node).erase key))
  | kept {sourceEntry : ITaskDataConnectionsSource}
      (missing : Slot.null ∈ SparseArray.write main delivery.connectionData.index delivery.data)
      (source : sourceEntry.get? .main = some (SparseArray.write (List.replicate numberOfInputs .null)
        delivery.connectionData.index (.full delivery.source)))
      (sourceFound :
        (next.waitingExecutionSource.row delivery.connectionData.node).get? key = some sourceEntry)
      (stack : AddsStarters state.nodeExecutionStack next.nodeExecutionStack)
      (changes : ChangesEntry state next delivery.connectionData.node key
        ((state.waitingExecution.row delivery.connectionData.node).set key
          (onlyMain (SparseArray.write main delivery.connectionData.index delivery.data))))

theorem any_isNull {slots : List (Slot α)} : slots.any Slot.isNull = true ↔ Slot.null ∈ slots := by
  simp [List.any_eq_true, Slot.isNull_iff]

theorem Chosen.of_openWaiting {state : ExecutionState Item} {numberOfInputs key : Nat}
    {main : List (Slot (List Item))} {sourceMain : List (Slot ISourceData)}
    (chosen : Chosen (openWaiting state delivery.connectionData.node) numberOfInputs delivery key main sourceMain) :
    Chosen state numberOfInputs delivery key main sourceMain := by
  have opened := openWaiting_changes state delivery.connectionData.node
  have sameRow : (openWaiting state delivery.connectionData.node).waitingExecution.row
      delivery.connectionData.node = state.waitingExecution.row delivery.connectionData.node := by
    rw [(opened key).waiting, if_pos rfl]
  cases chosen with
  | waiting nextOpen sourceFound sourceMainFound =>
    obtain ⟨entry, found, _⟩ := nextOpen.found
    -- changing the next entry only leaves this one alone
    rw [(opened (key + 1)).sources _ key entry found (.inr (by omega))] at sourceFound
    exact .waiting (sameRow ▸ nextOpen) sourceFound sourceMainFound
  | new allTaken =>
    rw [sameRow] at allTaken ⊢
    exact .new allTaken

theorem addNodeToBeExecuted_cases [Inhabited Item] {inputs : NodeInputConnections}
    (isInputs : workflow.mainInputs delivery.connectionData.node = .ok inputs) (several : 1 < inputs.length)
    (returns : addNodeToBeExecuted workflow runData state delivery = .ok next) :
    ∃ key main sourceMain, Chosen state inputs.length delivery key main sourceMain ∧
      Outcome workflow state next inputs.length delivery key main sourceMain := by
  obtain ⟨inputs', isInputs', returns⟩ := Loop.bind_inv returns
  obtain rfl : inputs' = inputs := Except.ok.inj (isInputs'.symm.trans isInputs)
  rw [if_pos several] at returns
  obtain ⟨⟨key, stored⟩, store, returns⟩ := Loop.bind_inv returns
  obtain ⟨main, sourceMain, entry, sourceEntry, chosen, isStored⟩ := storeDelivery_inv store
  obtain ⟨written, isWritten, returns⟩ := Loop.bind_inv returns
  have found : (stored.waitingExecution.row delivery.connectionData.node).get? key = some entry := by
    rw [isStored.changes.waiting, if_pos rfl, OrderedMap.get?_set_self]
  obtain ⟨entry', found', isMain⟩ := mainOf_eq_ok isWritten
  obtain rfl : entry' = entry := Option.some.inj (found'.symm.trans found)
  obtain rfl : SparseArray.write main _ _ = written := Option.some.inj (isStored.data.symm.trans isMain)
  refine ⟨key, main, sourceMain, chosen.of_openWaiting, ?_⟩
  have toStored : ChangesEntry state stored delivery.connectionData.node key
      ((state.waitingExecution.row delivery.connectionData.node).set key entry') := by
    have opened := openWaiting_changes state delivery.connectionData.node key
    have changes := isStored.changes
    rw [opened.waiting, if_pos rfl] at changes
    refine opened.trans changes fun other otherEntry different inCells => ?_
    rwa [OrderedMap.get?_set_of_ne _ _ different] at inCells
  have storedRow : stored.waitingExecution.row delivery.connectionData.node =
      (state.waitingExecution.row delivery.connectionData.node).set key entry' := by
    rw [toStored.waiting, if_pos rfl]
  have storedStack : stored.nodeExecutionStack = state.nodeExecutionStack := by
    rw [isStored.stack, openWaiting]
    split <;> rfl
  split at returns
  · rename_i missing
    obtain ⟨stack, forced, returns⟩ := Loop.bind_inv returns
    have adds : AddsStarters state.nodeExecutionStack stack := by
      rw [storedStack] at forced
      split at forced
      · cases forced
        exact .refl _
      · exact forceInputs_adds forced
    let restacked : ExecutionState Item := { stored with nodeExecutionStack := stack }
    have foundAgain : (restacked.waitingExecution.row delivery.connectionData.node).get? key = some entry' :=
      found
    obtain ⟨keptSource, isKeptSource, keptSourceFound, keptStack, kept⟩ :=
      keepWaiting_inv foundAgain isMain returns
    have fromStored : ChangesEntry stored next delivery.connectionData.node key _ :=
      ⟨kept.waiting, kept.sources⟩
    have changes := toStored.trans fromStored fun other otherEntry different inCells => by
      rw [OrderedMap.get?_set_of_ne _ _ different] at inCells
      exact storedRow ▸ inCells
    have rowAgain : restacked.waitingExecution.row delivery.connectionData.node =
      (state.waitingExecution.row delivery.connectionData.node).set key entry' := storedRow
    rw [SparseArray.write_write, rowAgain, OrderedMap.set_set] at changes
    exact .kept (any_isNull.mp missing) isKeptSource keptSourceFound (keptStack ▸ adds) changes
  · rename_i noneMissing
    cases returns
    -- a missing `nodeSuccessData` writes `null`, so there was one
    have isOutput : delivery.firstSource = .full delivery.source := by
      rw [Delivery.firstSource]
      split
      · rename_i isNone
        refine absurd (any_isNull.mpr ?_) noneMissing
        have isNull : delivery.data = .null := by rw [Delivery.data, Option.isNone_iff_eq_none.mp isNone]
        rw [SparseArray.mem_iff_read]
        exact ⟨delivery.connectionData.index, by simp, by simp [isNull]⟩
      · rfl
    have isItem : (waitingItem workflow stored delivery.connectionData.node key).data = entry' := by
      rw [waitingItem, found]
      rfl
    have removed : ChangesEntry stored (moveToStack workflow stored delivery.connectionData.node key)
        delivery.connectionData.node key _ :=
      let item := waitingItem workflow stored delivery.connectionData.node key
      let changes := removeWaiting_changes
        { stored with nodeExecutionStack := enqueue workflow item stored.nodeExecutionStack }
        delivery.connectionData.node key
      ⟨changes.waiting, changes.sources⟩
    have changes := toStored.trans removed fun other otherEntry different inCells => by
      rw [OrderedMap.get?_erase_of_ne _ different] at inCells
      exact storedRow ▸ inCells
    have rowAgain : (state.waitingExecution.row delivery.connectionData.node).erase key =
        (stored.waitingExecution.row delivery.connectionData.node).erase key := by
      rw [storedRow, OrderedMap.erase_set_self]
    have noNull := fun inside => noneMissing (any_isNull.mpr inside)
    refine .moved noNull rfl (isItem ▸ isStored.data) isStored.sourceFound (isOutput ▸ isStored.source)
      ?_ (rowAgain ▸ changes)
    rw [moveToStack, stack_removeWaiting, ← storedStack]
    exact enqueue_perm _ _ _

end N8n.Core
