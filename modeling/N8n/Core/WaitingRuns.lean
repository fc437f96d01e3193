import N8n.Core.AddNodeToBeExecuted

/-! # Runs of deliveries to nodes with several inputs

What becomes of the data and the sources that `addNodeToBeExecuted` collects,
over any sequence of calls.  Between two calls the stack may change in any way,
and an entry may be taken out before all its data is there, as the end of an
execution does.
-/

namespace N8n.Core

variable {Item : Type}

/-! ## The data and the source at an input -/

def dataAt (entry : ITaskDataConnections Item) (index : Nat) : Slot (List Item) :=
  SparseArray.read ((entry.get? .main).getD []) index

def sourceAt (sourceEntry : Option ITaskDataConnectionsSource) (index : Nat) : Slot ISourceData :=
  SparseArray.read (((sourceEntry.bind (·.get? .main))).getD []) index

variable {main : List (Slot (List Item))}

theorem dataAt_of_main {entry : ITaskDataConnections Item}
    (isMain : entry.get? .main = some main) (index : Nat) : dataAt entry index = SparseArray.read main index := by
  rw [dataAt, isMain]
  rfl

theorem sourceAt_of_main {sourceEntry : ITaskDataConnectionsSource} {main : List (Slot ISourceData)}
    (isMain : sourceEntry.get? .main = some main) (index : Nat) :
    sourceAt (some sourceEntry) index = SparseArray.read main index := by
  rw [sourceAt, Option.bind_some, isMain]
  rfl

/-- Items that start a node have a single input, items that waited have several. -/
def hasSeveralInputs (item : IExecuteData Item) : Bool := 1 < ((item.data.get? .main).getD []).length

/-! ## Runs -/

/-- The state that is reached, the calls so far and the items that moved from waiting to the stack.
Every call meets `Meets`. -/
inductive Run (workflow : Workflow) [Inhabited Item] (Meets : ExecutionState Item → Delivery Item → Prop) :
    ExecutionState Item → List (Delivery Item) → List (IExecuteData Item) → Prop
  | start {state : ExecutionState Item} (noneWaiting : state.waitingExecution = ∅) :
      Run workflow Meets state [] []
  | deliver {state next : ExecutionState Item} {deliveries : List (Delivery Item)}
      {moved added : List (IExecuteData Item)} {runData : IRunData Item} {delivery : Delivery Item}
      {node : INode} {inputs : NodeInputConnections} (run : Run workflow Meets state deliveries moved)
      (isNode : workflow.getNode delivery.connectionData.node = some node)
      (isInputs : workflow.mainInputs delivery.connectionData.node = .ok inputs)
      (several : 1 < inputs.length) (meets : Meets state delivery)
      (returns : addNodeToBeExecuted workflow runData state delivery = .ok next)
      (isAdded : next.nodeExecutionStack.Perm (added ++ state.nodeExecutionStack)) :
      Run workflow Meets next (deliveries ++ [delivery]) (moved ++ added.filter hasSeveralInputs)
  | restack {state : ExecutionState Item} {deliveries : List (Delivery Item)}
      {moved : List (IExecuteData Item)} (run : Run workflow Meets state deliveries moved)
      (nodeExecutionStack : List (IExecuteData Item)) :
      Run workflow Meets { state with nodeExecutionStack } deliveries moved
  | drain {state : ExecutionState Item} {deliveries : List (Delivery Item)}
      {moved : List (IExecuteData Item)} {nodeName : String} {node : INode} {runIndex : Nat}
      {entry : ITaskDataConnections Item} (run : Run workflow Meets state deliveries moved)
      (isNode : workflow.getNode nodeName = some node)
      (found : (state.waitingExecution.row nodeName).get? runIndex = some entry) :
      Run workflow Meets (removeWaiting state nodeName runIndex) deliveries
        (moved ++ [waitingItem workflow state nodeName runIndex])

/-- Every waiting entry has at least two inputs. -/
def WellShaped (state : ExecutionState Item) : Prop :=
  ∀ nodeName key entry, (state.waitingExecution.row nodeName).get? key = some entry →
    ∃ main, entry.get? .main = some main ∧ 1 < main.length

variable {state : ExecutionState Item}

theorem Chosen.several {numberOfInputs key : Nat} {delivery : Delivery Item} {sourceMain : List (Slot ISourceData)}
    (shaped : WellShaped state)
    (several : 1 < numberOfInputs) (chosen : Chosen state numberOfInputs delivery key main sourceMain) :
    1 < main.length := by
  cases chosen with
  | waiting nextOpen sourceFound sourceMainFound =>
    obtain ⟨entry, found, isMain⟩ := nextOpen.found
    obtain ⟨main', isMain', longer⟩ := shaped _ _ _ found
    rw [isMain] at isMain'
    cases isMain'
    exact longer
  | new => simpa using several

theorem Chosen.notFull {numberOfInputs key : Nat} {delivery : Delivery Item} {sourceMain : List (Slot ISourceData)}
    (chosen : Chosen state numberOfInputs delivery key main sourceMain) :
    (SparseArray.read main delivery.connectionData.index).isFull = false := by
  cases chosen with
  | waiting nextOpen sourceFound sourceMainFound => exact nextOpen.isOpen
  | new =>
    rw [SparseArray.read_replicate_null]
    split <;> rfl

theorem WellShaped.change {state next : ExecutionState Item} {nodeName : String} {key : Nat}
    {cells : OrderedMap Nat (ITaskDataConnections Item)} (shaped : WellShaped state)
    (changes : ChangesEntry state next nodeName key cells)
    (shapedCells : ∀ other entry, cells.get? other = some entry →
      (state.waitingExecution.row nodeName).get? other = some entry ∨
        ∃ main, entry.get? .main = some main ∧ 1 < main.length) : WellShaped next := by
  intro name other entry found
  rw [changes.waiting] at found
  split at found
  · cases shapedCells other entry found with
    | inl old => exact shaped nodeName other entry old
    | inr new => exact new
  · exact shaped name other entry found

theorem get?_of_get?_erase {ν : Type} {map : OrderedMap Nat ν} {key other : Nat} {value : ν}
    (found : (map.erase key).get? other = some value) : map.get? other = some value := by
  rw [OrderedMap.get?_eq_some] at found ⊢
  exact (OrderedMap.mem_erase.mp found).2

theorem Run.wellShaped {workflow : Workflow} [Inhabited Item]
    {Meets : ExecutionState Item → Delivery Item → Prop}
    {deliveries : List (Delivery Item)} {moved : List (IExecuteData Item)}
    (run : Run workflow Meets state deliveries moved) : WellShaped state := by
  induction run with
  | start noneWaiting =>
    intro nodeName key entry found
    rw [noneWaiting] at found
    cases found
  | deliver run isNode isInputs several meets returns isAdded shaped =>
    obtain ⟨key, main, sourceMain, chosen, outcome⟩ := addNodeToBeExecuted_cases isInputs several returns
    have longer := chosen.several shaped several
    cases outcome with
    | moved noneMissing node data isSource source stack changes =>
      exact shaped.change changes fun other entry found => .inl (get?_of_get?_erase found)
    | kept missing source sourceFound stack changes =>
      refine shaped.change changes fun other entry found => ?_
      rw [OrderedMap.get?_set] at found
      split at found
      · cases found
        refine .inr ⟨_, get?_onlyMain _, ?_⟩
        rw [SparseArray.length_write]
        omega
      · exact .inl found
  | restack run nodeExecutionStack shaped => exact shaped
  | drain run isNode found shaped =>
    exact shaped.change (removeWaiting_changes _ _ _) fun other entry found => .inl (get?_of_get?_erase found)

theorem filter_added {stack next added : List (IExecuteData Item)} {item : IExecuteData Item}
    (isAdded : next.Perm (added ++ stack)) (moved : next.Perm (item :: stack))
    (several : hasSeveralInputs item = true) : added.filter hasSeveralInputs = [item] := by
  have perm : (added ++ stack).Perm ([item] ++ stack) := isAdded.symm.trans moved
  have single := List.perm_singleton.mp ((List.perm_append_right_iff stack).mp perm)
  rw [single, List.filter_cons_of_pos several, List.filter_nil]

theorem filter_starters {stack next added : List (IExecuteData Item)}
    (isAdded : next.Perm (added ++ stack)) (starters : AddsStarters stack next) :
    added.filter hasSeveralInputs = [] := by
  obtain ⟨added', perm, single⟩ := starters
  have same := (List.perm_append_right_iff stack).mp (isAdded.symm.trans perm)
  rw [List.filter_eq_nil_iff]
  intro item member
  obtain ⟨slot, isSingle⟩ := single item (same.subset member)
  simp [hasSeveralInputs, isSingle]

/-- One more call; as long as nothing leaves the stack, what moved is there. -/
theorem Run.snoc {workflow : Workflow} [Inhabited Item] {Meets : ExecutionState Item → Delivery Item → Prop}
    {state next : ExecutionState Item} {deliveries : List (Delivery Item)} {moved : List (IExecuteData Item)}
    {runData : IRunData Item} {delivery : Delivery Item} {node : INode} {inputs : NodeInputConnections}
    (run : Run workflow Meets state deliveries moved)
    (onStack : moved.Perm (state.nodeExecutionStack.filter hasSeveralInputs))
    (isNode : workflow.getNode delivery.connectionData.node = some node)
    (isInputs : workflow.mainInputs delivery.connectionData.node = .ok inputs) (several : 1 < inputs.length)
    (meets : Meets state delivery) (returns : addNodeToBeExecuted workflow runData state delivery = .ok next) :
    ∃ moved', Run workflow Meets next (deliveries ++ [delivery]) moved' ∧
      moved'.Perm (next.nodeExecutionStack.filter hasSeveralInputs) := by
  have isAdded : ∃ added, next.nodeExecutionStack.Perm (added ++ state.nodeExecutionStack) := by
    obtain ⟨key, main, sourceMain, chosen, outcome⟩ := addNodeToBeExecuted_cases isInputs several returns
    cases outcome with
    | moved noneMissing node data isSource source stack changes => exact ⟨[_], stack⟩
    | kept missing source sourceFound stack changes =>
      obtain ⟨added, perm, _⟩ := stack
      exact ⟨added, perm⟩
  obtain ⟨added, isAdded⟩ := isAdded
  refine ⟨_, run.deliver isNode isInputs several meets returns isAdded, ?_⟩
  have filtered := isAdded.filter hasSeveralInputs
  rw [List.filter_append] at filtered
  exact ((onStack.append_right _).trans List.perm_append_comm).trans filtered.symm

/-! ## Conservation of the data -/

section Conservation

variable [DecidableEq Item]

def deliveredCount (deliveries : List (Delivery Item)) (nodeName : String) (index : Nat) (items : List Item) :
    Nat :=
  deliveries.countP fun delivery => delivery.connectionData.node = nodeName ∧
    delivery.connectionData.index = index ∧ delivery.data = .full items

def pendingCount (state : ExecutionState Item) (nodeName : String) (index : Nat) (items : List Item) : Nat :=
  (state.waitingExecution.row nodeName).entries.countP fun entry => dataAt entry.2 index = .full items

/-- How many items moved to the stack for the node hold the items at the input. -/
def movedCount (moved : List (IExecuteData Item)) (nodeName : String) (index : Nat) (items : List Item) : Nat :=
  moved.countP fun item => item.node.map (·.name) = some nodeName ∧ dataAt item.data index = .full items

/-- Whatever was delivered is in one waiting entry or in one item of the stack, at its input. -/
def Conserved (state : ExecutionState Item) (deliveries : List (Delivery Item))
    (moved : List (IExecuteData Item)) : Prop :=
  ∀ nodeName index items, deliveredCount deliveries nodeName index items =
    pendingCount state nodeName index items + movedCount moved nodeName index items

/-- When every entry has data at the input already, the number of the entries is not the index of
one of them. -/
def Fresh (state : ExecutionState Item) (delivery : Delivery Item) : Prop :=
  AllTaken (state.waitingExecution.row delivery.connectionData.node) delivery.connectionData.index →
    (state.waitingExecution.row delivery.connectionData.node).size ∉
      (state.waitingExecution.row delivery.connectionData.node).keys

variable {delivery : Delivery Item} {main : List (Slot (List Item))}

theorem pendingCount_of_chosen {state : ExecutionState Item} {numberOfInputs key : Nat}
    {sourceMain : List (Slot ISourceData)} (fresh : Fresh state delivery)
    (chosen : Chosen state numberOfInputs delivery key main sourceMain) (index : Nat) (items : List Item) :
    pendingCount state delivery.connectionData.node index items =
      ((state.waitingExecution.row delivery.connectionData.node).erase key).entries.countP
        (fun entry => dataAt entry.2 index = .full items) +
      if SparseArray.read main index = .full items then 1 else 0 := by
  cases chosen with
  | waiting nextOpen sourceFound sourceMainFound =>
    obtain ⟨entry, found, isMain⟩ := nextOpen.found
    rw [pendingCount, OrderedMap.countP_of_get? found]
    simp only [decide_eq_true_eq, dataAt_of_main isMain]
  | new allTaken =>
    rw [OrderedMap.erase_of_not_mem (fresh allTaken), SparseArray.read_replicate_null, pendingCount]
    split <;> simp

theorem held_after_write (notFull : (SparseArray.read main delivery.connectionData.index).isFull = false)
    (index : Nat) (items : List Item) :
    (if SparseArray.read (SparseArray.write main delivery.connectionData.index delivery.data) index =
        .full items then 1 else 0) =
      (if SparseArray.read main index = .full items then 1 else 0) +
        if delivery.connectionData.index = index ∧ delivery.data = .full items then 1 else 0 := by
  rw [SparseArray.read_write]
  by_cases same : index = delivery.connectionData.index
  · have notHeld : SparseArray.read main index ≠ .full items := by
      intro held
      rw [same] at held
      rw [held] at notFull
      cases notFull
    simp [same.symm, notHeld]
  · simp [same, Ne.symm same]

theorem deliveredCount_append (deliveries : List (Delivery Item)) (delivery : Delivery Item)
    (nodeName : String) (index : Nat) (items : List Item) :
    deliveredCount (deliveries ++ [delivery]) nodeName index items =
      deliveredCount deliveries nodeName index items +
        if delivery.connectionData.node = nodeName ∧ delivery.connectionData.index = index ∧
          delivery.data = .full items then 1 else 0 := by
  simp [deliveredCount, List.countP_append, List.countP_cons]

theorem movedCount_append (moved : List (IExecuteData Item)) (item : IExecuteData Item)
    (nodeName : String) (index : Nat) (items : List Item) :
    movedCount (moved ++ [item]) nodeName index items = movedCount moved nodeName index items +
      if item.node.map (·.name) = some nodeName ∧ dataAt item.data index = .full items then 1 else 0 := by
  simp [movedCount, List.countP_append, List.countP_cons]

theorem pendingCount_of_ne {state next : ExecutionState Item} {nodeName name : String} {key : Nat}
    {cells : OrderedMap Nat (ITaskDataConnections Item)} (changes : ChangesEntry state next nodeName key cells)
    (different : name ≠ nodeName) (index : Nat) (items : List Item) :
    pendingCount next name index items = pendingCount state name index items := by
  rw [pendingCount, pendingCount, changes.waiting, if_neg different]

theorem Conserved.deliver {workflow : Workflow} {state next : ExecutionState Item} {deliveries : List (Delivery Item)}
    {moved added : List (IExecuteData Item)} {node : INode} {numberOfInputs key : Nat}
    {sourceMain : List (Slot ISourceData)} (conserved : Conserved state deliveries moved)
    (isNode : workflow.getNode delivery.connectionData.node = some node) (fresh : Fresh state delivery)
    (chosen : Chosen state numberOfInputs delivery key main sourceMain) (longer : 1 < main.length)
    (outcome : Outcome workflow state next numberOfInputs delivery key main sourceMain)
    (isAdded : next.nodeExecutionStack.Perm (added ++ state.nodeExecutionStack)) :
    Conserved next (deliveries ++ [delivery]) (moved ++ added.filter hasSeveralInputs) := by
  intro nodeName index items
  have before := conserved nodeName index items
  have held := held_after_write chosen.notFull index items
  rw [deliveredCount_append, before]
  by_cases same : nodeName = delivery.connectionData.node
  · subst same
    rw [pendingCount_of_chosen fresh chosen]
    simp only [true_and]
    cases outcome with
    | moved noneMissing itemNode data isSource source stack changes =>
      rename_i item sourceEntry
      have several : hasSeveralInputs item = true := by
        simp [hasSeveralInputs, data, longer]
      have isNamed : item.node.map (·.name) = some delivery.connectionData.node := by
        rw [itemNode, isNode, Option.map_some, Workflow.name_of_getNode isNode]
      rw [filter_added isAdded stack several, movedCount_append, pendingCount, changes.waiting, if_pos rfl,
        dataAt_of_main data]
      simp only [isNamed, true_and]
      omega
    | kept missing source sourceFound stack changes =>
      rw [filter_starters isAdded stack, List.append_nil, pendingCount, changes.waiting, if_pos rfl,
        OrderedMap.countP_set]
      simp only [dataAt_of_main (get?_onlyMain _), decide_eq_true_eq]
      omega
  · rw [if_neg (fun aimed => same aimed.1.symm), Nat.add_zero]
    cases outcome with
    | moved noneMissing itemNode data isSource source stack changes =>
      rename_i item sourceEntry
      have several : hasSeveralInputs item = true := by
        simp [hasSeveralInputs, data, longer]
      have otherNode : item.node.map (·.name) ≠ some nodeName := by
        rw [itemNode, isNode, Option.map_some, Workflow.name_of_getNode isNode]
        exact fun equal => same (Option.some.inj equal).symm
      rw [filter_added isAdded stack several, movedCount_append, if_neg (fun holds => otherNode holds.1),
        pendingCount_of_ne changes same, Nat.add_zero]
    | kept missing source sourceFound stack changes =>
      rw [filter_starters isAdded stack, List.append_nil, pendingCount_of_ne changes same]

theorem Conserved.drain {workflow : Workflow} {state : ExecutionState Item}
    {deliveries : List (Delivery Item)} {moved : List (IExecuteData Item)} {nodeName : String} {node : INode}
    {runIndex : Nat} {entry : ITaskDataConnections Item} (conserved : Conserved state deliveries moved)
    (isNode : workflow.getNode nodeName = some node)
    (found : (state.waitingExecution.row nodeName).get? runIndex = some entry) :
    Conserved (removeWaiting state nodeName runIndex) deliveries
      (moved ++ [waitingItem workflow state nodeName runIndex]) := by
  intro name index items
  have changes := removeWaiting_changes state nodeName runIndex
  have isItem : (waitingItem workflow state nodeName runIndex).data = entry := by
    rw [waitingItem, found]
    rfl
  have isNamed : (waitingItem workflow state nodeName runIndex).node.map (·.name) = some nodeName := by
    rw [waitingItem, isNode, Option.map_some, Workflow.name_of_getNode isNode]
  rw [conserved name index items, movedCount_append, isItem, isNamed]
  by_cases same : name = nodeName
  · subst same
    rw [pendingCount, pendingCount, changes.waiting, if_pos rfl, OrderedMap.countP_of_get? found]
    simp only [true_and, decide_eq_true_eq]
    omega
  · rw [pendingCount_of_ne changes same, if_neg]
    · rfl
    · exact fun holds => same (Option.some.inj holds.1).symm

/-- No delivery is lost or counted twice while every new index is a free one. -/
theorem conserved_of_fresh {workflow : Workflow} [Inhabited Item] {state : ExecutionState Item}
    {deliveries : List (Delivery Item)} {moved : List (IExecuteData Item)}
    (run : Run workflow Fresh state deliveries moved) : Conserved state deliveries moved := by
  induction run with
  | start noneWaiting =>
    intro nodeName index items
    simp [deliveredCount, pendingCount, movedCount, noneWaiting]
  | deliver run isNode isInputs several fresh returns isAdded conserved =>
    obtain ⟨key, main, sourceMain, chosen, outcome⟩ := addNodeToBeExecuted_cases isInputs several returns
    exact conserved.deliver isNode fresh chosen (chosen.several run.wellShaped several) outcome isAdded
  | restack run nodeExecutionStack conserved => exact conserved
  | drain run isNode found conserved => exact conserved.drain isNode found

end Conservation

/-! ## Alignment of the sources -/

section Alignment

/-- The entry that takes the data has no other data yet, or the data is the last it waits for. -/
def FirstOrLast (state : ExecutionState Item) (delivery : Delivery Item) : Prop :=
  ∀ key main, NextOpen (state.waitingExecution.row delivery.connectionData.node) delivery.connectionData.index
      key main →
    (∀ other items, other ≠ delivery.connectionData.index → SparseArray.read main other ≠ .full items) ∨
      Slot.null ∉ SparseArray.write main delivery.connectionData.index delivery.data

def HasSources (data : ITaskDataConnections Item) (source : Option ITaskDataConnectionsSource) : Prop :=
  ∀ index items, dataAt data index = .full items → ∃ sourceData, sourceAt source index = .full sourceData

def WaitingHasSources (state : ExecutionState Item) : Prop :=
  ∀ nodeName key entry, (state.waitingExecution.row nodeName).get? key = some entry →
    HasSources entry ((state.waitingExecutionSource.row nodeName).get? key)

variable {main : List (Slot (List Item))} {sourceMain : List (Slot ISourceData)}

theorem hasSources_of_main {data : ITaskDataConnections Item} {sourceEntry : ITaskDataConnectionsSource} {index : Nat}
    {slot : Slot (List Item)} {source : ISourceData}
    (isMain : data.get? .main = some (SparseArray.write main index slot))
    (isSourceMain : sourceEntry.get? .main = some (SparseArray.write sourceMain index (.full source)))
    (others : ∀ other items, other ≠ index → SparseArray.read main other = .full items →
      ∃ sourceData, SparseArray.read sourceMain other = .full sourceData) :
    HasSources data (some sourceEntry) := by
  intro other items isFull
  rw [dataAt_of_main isMain, SparseArray.read_write] at isFull
  rw [sourceAt_of_main isSourceMain, SparseArray.read_write]
  by_cases same : other = index
  · rw [if_pos same]
    exact ⟨source, rfl⟩
  · rw [if_neg same] at isFull ⊢
    exact others other items same isFull

variable {state next : ExecutionState Item} {nodeName name : String}
  {cells : OrderedMap Nat (ITaskDataConnections Item)}

theorem WaitingHasSources.untouched {key other : Nat} {entry : ITaskDataConnections Item}
    (waiting : WaitingHasSources state) (changes : ChangesEntry state next nodeName key cells)
    (before : (state.waitingExecution.row name).get? other = some entry)
    (after : (next.waitingExecution.row name).get? other = some entry) (differs : name ≠ nodeName ∨ other ≠ key) :
    HasSources entry ((next.waitingExecutionSource.row name).get? other) := by
  rw [changes.sources name other entry after differs]
  exact waiting name other entry before

variable {key : Nat}

theorem WaitingHasSources.erase {nodeName : String} (waiting : WaitingHasSources state)
    (changes : ChangesEntry state next nodeName key ((state.waitingExecution.row nodeName).erase key)) :
    WaitingHasSources next := by
  intro name other entry found
  have inNext := found
  rw [changes.waiting] at found
  by_cases same : name = nodeName
  · rw [if_pos same] at found
    have different : other ≠ key := by
      intro equal
      rw [equal, OrderedMap.get?_erase_self] at found
      cases found
    exact waiting.untouched changes (same ▸ get?_of_get?_erase found) inNext (.inr different)
  · rw [if_neg same] at found
    exact waiting.untouched changes found inNext (.inl same)

variable {delivery : Delivery Item}

theorem Outcome.hasSources {workflow : Workflow} {numberOfInputs key : Nat} {added : List (IExecuteData Item)}
    (waiting : WaitingHasSources state) (firstOrLast : FirstOrLast state delivery)
    (chosen : Chosen state numberOfInputs delivery key main sourceMain) (longer : 1 < main.length)
    (outcome : Outcome workflow state next numberOfInputs delivery key main sourceMain)
    (isAdded : next.nodeExecutionStack.Perm (added ++ state.nodeExecutionStack)) :
    WaitingHasSources next ∧ ∀ item ∈ added.filter hasSeveralInputs, HasSources item.data item.source := by
  have emptySlots : ∀ other (items : List Item), SparseArray.read (List.replicate numberOfInputs .null) other ≠
      .full items := by
    intro other items
    rw [SparseArray.read_replicate_null]
    split <;> simp
  cases outcome with
  | moved noneMissing node data isSource source stack changes =>
    rename_i item sourceEntry
    have several : hasSeveralInputs item = true := by simp [hasSeveralInputs, data, longer]
    refine ⟨waiting.erase changes, ?_⟩
    intro moved member
    rw [filter_added isAdded stack several, List.mem_singleton] at member
    rw [member, isSource]
    refine hasSources_of_main data source fun other items _ isFull => ?_
    cases chosen with
    | waiting nextOpen sourceFound sourceMainFound =>
      obtain ⟨entry, found, isMain⟩ := nextOpen.found
      have sources := waiting _ _ _ found other items (dataAt_of_main isMain other ▸ isFull)
      rwa [sourceFound, sourceAt_of_main sourceMainFound] at sources
    | new => exact absurd isFull (emptySlots other items)
  | kept missing source sourceFound stack changes =>
    refine ⟨fun name other entry found => ?_, fun item member => ?_⟩
    · have inNext := found
      rw [changes.waiting] at found
      by_cases same : name = delivery.connectionData.node
      · rw [if_pos same, OrderedMap.get?_set] at found
        split at found
        · rename_i isKey
          cases found
          rw [same, isKey, sourceFound]
          refine hasSources_of_main (get?_onlyMain _) source fun index items different isFull => ?_
          -- no other input of the entry has data
          cases chosen with
          | waiting nextOpen sourceFound sourceMainFound =>
            cases firstOrLast _ _ nextOpen with
            | inl first => exact absurd isFull (first index items different)
            | inr last => exact absurd missing last
          | new => exact absurd isFull (emptySlots index items)
        · rename_i different
          exact waiting.untouched changes (same ▸ found) inNext (.inr different)
      · rw [if_neg same] at found
        exact waiting.untouched changes found inNext (.inl same)
    · rw [filter_starters isAdded stack] at member
      cases member

variable [DecidableEq Item]

def sourcedDeliveries (deliveries : List (Delivery Item)) (nodeName : String) (index : Nat)
    (items : List Item) (source : ISourceData) : Nat :=
  deliveries.countP fun delivery => delivery.connectionData.node = nodeName ∧
    delivery.connectionData.index = index ∧ delivery.data = .full items ∧ delivery.source = source

def sourcedPending (state : ExecutionState Item) (nodeName : String) (index : Nat) (items : List Item)
    (source : ISourceData) : Nat :=
  (state.waitingExecution.row nodeName).entries.countP fun entry => dataAt entry.2 index = .full items ∧
    sourceAt ((state.waitingExecutionSource.row nodeName).get? entry.1) index = .full source

def sourcedMoved (moved : List (IExecuteData Item)) (nodeName : String) (index : Nat) (items : List Item)
    (source : ISourceData) : Nat :=
  moved.countP fun item => item.node.map (·.name) = some nodeName ∧ dataAt item.data index = .full items ∧
    sourceAt item.source index = .full source

theorem ChangesEntry.sourced_untouched (changes : ChangesEntry state next nodeName key cells) (index : Nat)
    (items : List Item) (source : ISourceData) {entries : List (Nat × ITaskDataConnections Item)}
    (within : ∀ entry ∈ entries, (next.waitingExecution.row name).get? entry.1 = some entry.2 ∧
      (name ≠ nodeName ∨ entry.1 ≠ key)) :
    (entries.countP fun entry => dataAt entry.2 index = .full items ∧
        sourceAt ((next.waitingExecutionSource.row name).get? entry.1) index = .full source) =
      entries.countP fun entry => dataAt entry.2 index = .full items ∧
        sourceAt ((state.waitingExecutionSource.row name).get? entry.1) index = .full source := by
  refine List.countP_congr fun entry member => ?_
  obtain ⟨found, differs⟩ := within entry member
  rw [changes.sources name entry.1 entry.2 found differs]

theorem sourcedPending_of_ne (changes : ChangesEntry state next nodeName key cells) (different : name ≠ nodeName)
    (index : Nat) (items : List Item) (source : ISourceData) :
    sourcedPending next name index items source = sourcedPending state name index items source := by
  have sameRow : next.waitingExecution.row name = state.waitingExecution.row name := by
    rw [changes.waiting, if_neg different]
  rw [sourcedPending, changes.sourced_untouched index items source fun entry member =>
    ⟨OrderedMap.get?_eq_some.mpr member, .inl different⟩, sourcedPending, sameRow]

theorem ChangesEntry.sourced_erase {nodeName : String} (changes : ChangesEntry state next nodeName key cells)
    (agree : ∀ other entry, other ≠ key → (state.waitingExecution.row nodeName).get? other = some entry →
      cells.get? other = some entry)
    (index : Nat) (items : List Item) (source : ISourceData) :
    (((state.waitingExecution.row nodeName).erase key).entries.countP fun entry =>
        dataAt entry.2 index = .full items ∧
          sourceAt ((next.waitingExecutionSource.row nodeName).get? entry.1) index = .full source) =
      ((state.waitingExecution.row nodeName).erase key).entries.countP fun entry =>
        dataAt entry.2 index = .full items ∧
          sourceAt ((state.waitingExecutionSource.row nodeName).get? entry.1) index = .full source := by
  refine changes.sourced_untouched index items source fun entry member => ?_
  obtain ⟨different, inState⟩ := OrderedMap.mem_erase.mp member
  refine ⟨?_, .inr different⟩
  rw [changes.waiting, if_pos rfl]
  exact agree _ _ different (OrderedMap.get?_eq_some.mpr inState)

theorem sourcedPending_of_chosen {state : ExecutionState Item} {numberOfInputs key : Nat}
    (chosen : Chosen state numberOfInputs delivery key main sourceMain) (index : Nat) (items : List Item)
    (source : ISourceData) :
    (((state.waitingExecution.row delivery.connectionData.node).erase key).entries.countP fun entry =>
        dataAt entry.2 index = .full items ∧ sourceAt
          ((state.waitingExecutionSource.row delivery.connectionData.node).get? entry.1) index = .full source) +
      (if SparseArray.read main index = .full items ∧ SparseArray.read sourceMain index = .full source
        then 1 else 0) ≤
      sourcedPending state delivery.connectionData.node index items source := by
  rw [sourcedPending]
  cases chosen with
  | waiting nextOpen sourceFound sourceMainFound =>
    obtain ⟨entry, found, isMain⟩ := nextOpen.found
    rw [OrderedMap.countP_of_get? found]
    simp only [decide_eq_true_eq, dataAt_of_main isMain, sourceFound, sourceAt_of_main sourceMainFound]
    exact Nat.le_refl _
  | new =>
    have isEmpty : SparseArray.read (List.replicate numberOfInputs .null) index ≠ .full items := by
      rw [SparseArray.read_replicate_null]
      split <;> simp
    rw [if_neg (fun holds => isEmpty holds.1)]
    exact OrderedMap.countP_erase_le _ _ _

theorem sourced_after_write (main : List (Slot (List Item))) (sourceMain : List (Slot ISourceData))
    {written : List (Slot ISourceData)}
    (own : SparseArray.read written delivery.connectionData.index = .full delivery.source)
    (others : ∀ other source, other ≠ delivery.connectionData.index → SparseArray.read written other =
      .full source → SparseArray.read sourceMain other = .full source)
    (index : Nat) (items : List Item) (source : ISourceData) :
    (if SparseArray.read (SparseArray.write main delivery.connectionData.index delivery.data) index =
        .full items ∧ SparseArray.read written index = .full source then 1 else 0) ≤
      (if SparseArray.read main index = .full items ∧ SparseArray.read sourceMain index = .full source
        then 1 else 0) +
        if delivery.connectionData.index = index ∧ delivery.data = .full items ∧ delivery.source = source
          then 1 else 0 := by
  rw [SparseArray.read_write]
  by_cases same : index = delivery.connectionData.index
  · subst same
    rw [own]
    simp
  · rw [if_neg same]
    split
    · rename_i holds
      rw [if_pos (And.intro holds.1 (others index source same holds.2))]
      omega
    · omega

theorem sourcedDeliveries_append (deliveries : List (Delivery Item)) (delivery : Delivery Item)
    (nodeName : String) (index : Nat) (items : List Item) (source : ISourceData) :
    sourcedDeliveries (deliveries ++ [delivery]) nodeName index items source =
      sourcedDeliveries deliveries nodeName index items source +
        if delivery.connectionData.node = nodeName ∧ delivery.connectionData.index = index ∧
          delivery.data = .full items ∧ delivery.source = source then 1 else 0 := by
  simp [sourcedDeliveries, List.countP_append, List.countP_cons]

theorem sourcedMoved_append (moved : List (IExecuteData Item)) (item : IExecuteData Item)
    (nodeName : String) (index : Nat) (items : List Item) (source : ISourceData) :
    sourcedMoved (moved ++ [item]) nodeName index items source =
      sourcedMoved moved nodeName index items source +
        if item.node.map (·.name) = some nodeName ∧ dataAt item.data index = .full items ∧
          sourceAt item.source index = .full source then 1 else 0 := by
  simp [sourcedMoved, List.countP_append, List.countP_cons]

/-- Every pair of data and source in an entry or a moved item comes from a call of its own. -/
def SourcesCounted (state : ExecutionState Item) (deliveries : List (Delivery Item))
    (moved : List (IExecuteData Item)) : Prop :=
  ∀ nodeName index items source, sourcedPending state nodeName index items source +
    sourcedMoved moved nodeName index items source ≤ sourcedDeliveries deliveries nodeName index items source

variable {deliveries : List (Delivery Item)}

theorem SourcesCounted.deliver {workflow : Workflow} {moved added : List (IExecuteData Item)} {node : INode}
    {numberOfInputs key : Nat} (counted : SourcesCounted state deliveries moved)
    (isNode : workflow.getNode delivery.connectionData.node = some node)
    (chosen : Chosen state numberOfInputs delivery key main sourceMain) (longer : 1 < main.length)
    (outcome : Outcome workflow state next numberOfInputs delivery key main sourceMain)
    (isAdded : next.nodeExecutionStack.Perm (added ++ state.nodeExecutionStack)) :
    SourcesCounted next (deliveries ++ [delivery]) (moved ++ added.filter hasSeveralInputs) := by
  intro nodeName index items source
  have before := counted nodeName index items source
  rw [sourcedDeliveries_append]
  by_cases same : nodeName = delivery.connectionData.node
  · subst same
    have chosenCount := sourcedPending_of_chosen chosen index items source
    simp only [true_and]
    cases outcome with
    | moved noneMissing itemNode data isSource sourceMainFound stack changes =>
      rename_i item sourceEntry
      have several : hasSeveralInputs item = true := by simp [hasSeveralInputs, data, longer]
      have isNamed : item.node.map (·.name) = some delivery.connectionData.node := by
        rw [itemNode, isNode, Option.map_some, Workflow.name_of_getNode isNode]
      have own := SparseArray.read_write_self sourceMain delivery.connectionData.index
        (.full delivery.source)
      have written := sourced_after_write main sourceMain own (fun other otherSource different isFull => by
        rwa [SparseArray.read_write_of_ne _ _ different] at isFull) index items source
      have stays := changes.sourced_erase (fun other entry different found => by
        rwa [OrderedMap.get?_erase_of_ne _ different]) index items source
      rw [filter_added isAdded stack several, sourcedMoved_append, sourcedPending, changes.waiting,
        if_pos rfl, stays, dataAt_of_main data, isSource, sourceAt_of_main sourceMainFound]
      simp only [isNamed, true_and]
      omega
    | kept missing sourceMainFound sourceFound stack changes =>
      have own : SparseArray.read (SparseArray.write (List.replicate numberOfInputs .null)
          delivery.connectionData.index (.full delivery.source)) delivery.connectionData.index =
            .full delivery.source := SparseArray.read_write_self _ _ _
      -- the other inputs have lost their sources
      have written := sourced_after_write main sourceMain own (fun other otherSource different isFull => by
        rw [SparseArray.read_write_of_ne _ _ different, SparseArray.read_replicate_null] at isFull
        split at isFull <;> cases isFull) index items source
      have stays := changes.sourced_erase (fun other entry different found => by
        rwa [OrderedMap.get?_set_of_ne _ _ different]) index items source
      rw [filter_starters isAdded stack, List.append_nil, sourcedPending, changes.waiting, if_pos rfl,
        OrderedMap.countP_set, stays]
      simp only [dataAt_of_main (get?_onlyMain _), sourceFound, sourceAt_of_main sourceMainFound,
        decide_eq_true_eq]
      omega
  · rw [if_neg (fun aimed => same aimed.1.symm), Nat.add_zero]
    cases outcome with
    | moved noneMissing itemNode data isSource sourceMainFound stack changes =>
      rename_i item sourceEntry
      have several : hasSeveralInputs item = true := by simp [hasSeveralInputs, data, longer]
      have otherNode : item.node.map (·.name) ≠ some nodeName := by
        rw [itemNode, isNode, Option.map_some, Workflow.name_of_getNode isNode]
        exact fun equal => same (Option.some.inj equal).symm
      rw [filter_added isAdded stack several, sourcedMoved_append, if_neg (fun holds => otherNode holds.1),
        sourcedPending_of_ne changes same]
      exact before
    | kept missing sourceMainFound sourceFound stack changes =>
      rw [filter_starters isAdded stack, List.append_nil, sourcedPending_of_ne changes same]
      exact before

theorem SourcesCounted.drain {workflow : Workflow} {state : ExecutionState Item} {moved : List (IExecuteData Item)}
    {nodeName : String} {node : INode} {runIndex : Nat} {entry : ITaskDataConnections Item}
    (counted : SourcesCounted state deliveries moved) (isNode : workflow.getNode nodeName = some node)
    (found : (state.waitingExecution.row nodeName).get? runIndex = some entry) :
    SourcesCounted (removeWaiting state nodeName runIndex) deliveries
      (moved ++ [waitingItem workflow state nodeName runIndex]) := by
  intro name index items source
  have before := counted name index items source
  have changes := removeWaiting_changes state nodeName runIndex
  have isItem : (waitingItem workflow state nodeName runIndex).data = entry := by
    rw [waitingItem, found]
    rfl
  have isNamed : (waitingItem workflow state nodeName runIndex).node.map (·.name) = some nodeName := by
    rw [waitingItem, isNode, Option.map_some, Workflow.name_of_getNode isNode]
  rw [sourcedMoved_append, isItem, isNamed]
  by_cases same : name = nodeName
  · subst same
    have stays := changes.sourced_erase (fun other entry different found => by
      rwa [OrderedMap.get?_erase_of_ne _ different]) index items source
    rw [sourcedPending, OrderedMap.countP_of_get? found] at before
    rw [sourcedPending, changes.waiting, if_pos rfl, stays]
    simp only [true_and, decide_eq_true_eq] at before ⊢
    show _ + (_ + if dataAt entry index = .full items ∧
      sourceAt ((state.waitingExecutionSource.row name).get? runIndex) index = .full source then 1 else 0) ≤ _
    omega
  · rw [sourcedPending_of_ne changes same, if_neg (fun holds => same (Option.some.inj holds.1).symm)]
    exact before

/-- Every item that moved has, at every input with data, the source of the call that delivered the data,
and no call stands behind two of them. -/
structure SourcesAligned (deliveries : List (Delivery Item)) (moved : List (IExecuteData Item)) : Prop where
  named : ∀ item ∈ moved, ∀ index items, dataAt item.data index = .full items →
    ∃ delivery ∈ deliveries, item.node.map (·.name) = some delivery.connectionData.node ∧
      delivery.connectionData.index = index ∧ delivery.data = .full items ∧
        sourceAt item.source index = .full delivery.source
  once : ∀ nodeName index items source, sourcedMoved moved nodeName index items source ≤
    sourcedDeliveries deliveries nodeName index items source

theorem SourcesCounted.aligned {state : ExecutionState Item} {moved : List (IExecuteData Item)}
    (counted : SourcesCounted state deliveries moved) (isNamed : ∀ item ∈ moved, item.node.isSome)
    (present : ∀ item ∈ moved, HasSources item.data item.source) : SourcesAligned deliveries moved := by
  have once : ∀ nodeName index items source, sourcedMoved moved nodeName index items source ≤
      sourcedDeliveries deliveries nodeName index items source := fun nodeName index items source =>
    Nat.le_trans (Nat.le_add_left _ _) (counted nodeName index items source)
  refine ⟨fun item member index items isFull => ?_, once⟩
  obtain ⟨source, isSource⟩ := present item member index items isFull
  obtain ⟨node, isNode⟩ := Option.isSome_iff_exists.mp (isNamed item member)
  have isMoved : 0 < sourcedMoved moved node.name index items source := by
    rw [sourcedMoved, List.countP_pos_iff]
    exact ⟨item, member, by simp [isNode, isFull, isSource]⟩
  have isDelivered := Nat.lt_of_lt_of_le isMoved (once node.name index items source)
  rw [sourcedDeliveries, List.countP_pos_iff] at isDelivered
  obtain ⟨delivery, inDeliveries, holds⟩ := isDelivered
  simp only [decide_eq_true_eq] at holds
  obtain ⟨toNode, toIndex, sameItems, sameSource⟩ := holds
  exact ⟨delivery, inDeliveries, by rw [isNode, toNode]; rfl, toIndex, sameItems, sameSource ▸ isSource⟩

theorem sourcesAligned_of_firstOrLast {workflow : Workflow} [Inhabited Item] {state : ExecutionState Item}
    {deliveries : List (Delivery Item)} {moved : List (IExecuteData Item)}
    (run : Run workflow FirstOrLast state deliveries moved) : SourcesAligned deliveries moved := by
  have invariant : SourcesCounted state deliveries moved ∧ WaitingHasSources state ∧
      ∀ item ∈ moved, item.node.isSome ∧ HasSources item.data item.source := by
    induction run with
    | start noneWaiting =>
      refine ⟨fun nodeName index items source => ?_, fun nodeName key entry found => ?_, by simp⟩
      · simp [sourcedPending, sourcedMoved, noneWaiting]
      · rw [noneWaiting] at found
        cases found
    | deliver run isNode isInputs several firstOrLast returns isAdded ih =>
      obtain ⟨counted, waiting, present⟩ := ih
      obtain ⟨key, main, sourceMain, chosen, outcome⟩ := addNodeToBeExecuted_cases isInputs several returns
      have longer := chosen.several run.wellShaped several
      obtain ⟨waitingNext, presentAdded⟩ := outcome.hasSources waiting firstOrLast chosen longer isAdded
      refine ⟨counted.deliver isNode chosen longer outcome isAdded, waitingNext, fun item member => ?_⟩
      cases List.mem_append.mp member with
      | inl old => exact present item old
      | inr new =>
        refine ⟨?_, presentAdded item new⟩
        cases outcome with
        | moved noneMissing node data isSource source stack changes =>
          rw [filter_added isAdded stack (by simp [hasSeveralInputs, data, longer]), List.mem_singleton] at new
          rw [new, node, isNode]
          rfl
        | kept missing source sourceFound stack changes =>
          rw [filter_starters isAdded stack] at new
          cases new
    | restack run nodeExecutionStack ih => exact ih
    | drain run isNode found ih =>
      obtain ⟨counted, waiting, present⟩ := ih
      refine ⟨counted.drain isNode found, waiting.erase (removeWaiting_changes _ _ _), fun item member => ?_⟩
      cases List.mem_append.mp member with
      | inl old => exact present item old
      | inr new =>
        rw [List.mem_singleton.mp new, waitingItem, isNode, found]
        exact ⟨rfl, waiting _ _ _ found⟩
  exact invariant.1.aligned (fun item member => (invariant.2.2 item member).1)
    fun item member => (invariant.2.2 item member).2

end Alignment

namespace TwoBranches

/-- Two nodes that hand on to the two inputs of a third one. -/
def left : INode := { id := "1", name := "left", type := "set" }
def right : INode := { id := "2", name := "right", type := "set" }
def merge : INode := { id := "3", name := "merge", type := "merge" }

def workflow : Workflow := .new [left, right, merge]
  (((∅ : IConnections).set "left" (onlyMain [.full [⟨"merge", .main, 0⟩]])).set "right"
    (onlyMain [.full [⟨"merge", .main, 1⟩]])) { executionOrder := some "v1" }

def handOn (parentNodeName : String) (index runIndex : Nat) (items : List Nat) : Delivery Nat where
  connectionData := ⟨"merge", .main, index⟩
  outputIndex := 0
  parentNodeName := parentNodeName
  nodeSuccessData := some [.full items]
  runIndex := runIndex

def noneWaiting : ExecutionState Nat := ⟨[], ∅, ∅⟩

theorem conserved : ∃ state moved, Run workflow Fresh state [handOn "left" 0 0 [10], handOn "right" 1 0 [20]]
    moved ∧ Conserved state [handOn "left" 0 0 [10], handOn "right" 1 0 [20]] moved := by
  have calls : ∃ first second,
      addNodeToBeExecuted workflow ∅ noneWaiting (handOn "left" 0 0 [10]) = .ok first ∧
      addNodeToBeExecuted workflow ∅ first (handOn "right" 1 0 [20]) = .ok second ∧
      (first.waitingExecution.row "merge").size ∉ (first.waitingExecution.row "merge").keys :=
    ⟨_, _, rfl, rfl, by decide⟩
  obtain ⟨first, second, firstReturns, secondReturns, isFree⟩ := calls
  have started : Run workflow Fresh noneWaiting [] [] := .start rfl
  obtain ⟨moved, run, onStack⟩ := started.snoc (List.Perm.refl _) rfl rfl (by decide) (fun _ => by decide)
    firstReturns
  obtain ⟨moved', run', _⟩ := run.snoc onStack rfl rfl (by decide) (fun _ => isFree) secondReturns
  exact ⟨second, moved', run', conserved_of_fresh run'⟩

/-- The left branch delivers three times.  The first entry is completed and deleted in between, so the
third one gets the index of the second one, whose data is lost. -/
theorem not_conserved : ∃ (state : ExecutionState Nat) (deliveries : List (Delivery Nat))
    (moved : List (IExecuteData Nat)), Run workflow (fun _ _ => True) state deliveries moved ∧
      ¬Conserved state deliveries moved := by
  have calls : ∃ first second third fourth,
      addNodeToBeExecuted workflow ∅ noneWaiting (handOn "left" 0 0 [10]) = .ok first ∧
      addNodeToBeExecuted workflow ∅ first (handOn "left" 0 1 [11]) = .ok second ∧
      addNodeToBeExecuted workflow ∅ second (handOn "right" 1 0 [20]) = .ok third ∧
      addNodeToBeExecuted workflow ∅ third (handOn "left" 0 2 [12]) = .ok fourth ∧
      pendingCount fourth "merge" 0 [11] = 0 ∧
      movedCount (fourth.nodeExecutionStack.filter hasSeveralInputs) "merge" 0 [11] = 0 :=
    ⟨_, _, _, _, rfl, rfl, rfl, rfl, by decide, by decide⟩
  obtain ⟨first, second, third, fourth, firstReturns, secondReturns, thirdReturns, fourthReturns, notPending,
    notMoved⟩ := calls
  have started : Run workflow (fun _ _ => True) noneWaiting [] [] := .start rfl
  obtain ⟨_, run, onStack⟩ := started.snoc (List.Perm.refl _) rfl rfl (by decide) trivial firstReturns
  obtain ⟨_, run, onStack⟩ := run.snoc onStack rfl rfl (by decide) trivial secondReturns
  obtain ⟨_, run, onStack⟩ := run.snoc onStack rfl rfl (by decide) trivial thirdReturns
  obtain ⟨moved, run, onStack⟩ := run.snoc onStack rfl rfl (by decide) trivial fourthReturns
  refine ⟨fourth, _, moved, run, fun conserved => ?_⟩
  have balance := conserved "merge" 0 [11]
  have delivered : deliveredCount ((([] ++ [handOn "left" 0 0 [10]]) ++ [handOn "left" 0 1 [11]]) ++
      [handOn "right" 1 0 [20]] ++ [handOn "left" 0 2 [12]]) "merge" 0 [11] = 1 := by decide
  have sameMoved : movedCount moved "merge" 0 [11] = 0 := (onStack.countP_eq _).trans notMoved
  omega

theorem sourcesAligned : ∃ state moved, Run workflow FirstOrLast state
    [handOn "left" 0 0 [10], handOn "right" 1 0 [20]] moved ∧ movedCount moved "merge" 0 [10] = 1 ∧
      SourcesAligned [handOn "left" 0 0 [10], handOn "right" 1 0 [20]] moved := by
  have calls : ∃ first second,
      addNodeToBeExecuted workflow ∅ noneWaiting (handOn "left" 0 0 [10]) = .ok first ∧
      addNodeToBeExecuted workflow ∅ first (handOn "right" 1 0 [20]) = .ok second ∧
      (∀ entry ∈ (first.waitingExecution.row "merge").entries,
        Slot.null ∉ SparseArray.write ((entry.2.get? .main).getD []) 1 (.full [20])) ∧
      movedCount (second.nodeExecutionStack.filter hasSeveralInputs) "merge" 0 [10] = 1 :=
    ⟨_, _, rfl, rfl, by decide, by decide⟩
  obtain ⟨first, second, firstReturns, secondReturns, isLast, isMoved⟩ := calls
  have started : Run workflow FirstOrLast noneWaiting [] [] := .start rfl
  have noneOpen : FirstOrLast noneWaiting (handOn "left" 0 0 [10]) := by
    intro key main nextOpen
    obtain ⟨entry, found, _⟩ := nextOpen.found
    cases found
  have completes : FirstOrLast first (handOn "right" 1 0 [20]) := by
    intro key main nextOpen
    obtain ⟨entry, found, isMain⟩ := nextOpen.found
    have noNull := isLast _ (OrderedMap.get?_eq_some.mp found)
    rw [isMain] at noNull
    exact .inr noNull
  obtain ⟨moved, run, onStack⟩ := started.snoc (List.Perm.refl _) rfl rfl (by decide) noneOpen firstReturns
  obtain ⟨moved', run', onStack'⟩ := run.snoc onStack rfl rfl (by decide) completes secondReturns
  exact ⟨second, moved', run', (onStack'.countP_eq _).trans isMoved, sourcesAligned_of_firstOrLast run'⟩

end TwoBranches

namespace ThreeBranches

/-- A node with three inputs, each behind a node of its own. -/
def first : INode := { id := "1", name := "first", type := "set" }
def second : INode := { id := "2", name := "second", type := "set" }
def third : INode := { id := "3", name := "third", type := "set" }
def merge : INode := { id := "4", name := "merge", type := "merge" }

def workflow : Workflow := .new [first, second, third, merge]
  ((((∅ : IConnections).set "first" (onlyMain [.full [⟨"merge", .main, 0⟩]])).set "second"
    (onlyMain [.full [⟨"merge", .main, 1⟩]])).set "third" (onlyMain [.full [⟨"merge", .main, 2⟩]]))
    { executionOrder := some "v1" }

/-- The second delivery prepares the entry again and loses the source of the first one. -/
theorem sources_not_aligned : ∃ (state : ExecutionState Nat) (deliveries : List (Delivery Nat))
    (moved : List (IExecuteData Nat)), Run workflow (fun _ _ => True) state deliveries moved ∧
      ¬SourcesAligned deliveries moved := by
  have calls : ∃ one two three,
      addNodeToBeExecuted workflow ∅ TwoBranches.noneWaiting (TwoBranches.handOn "first" 0 0 [10]) = .ok one ∧
      addNodeToBeExecuted workflow ∅ one (TwoBranches.handOn "second" 1 0 [20]) = .ok two ∧
      addNodeToBeExecuted workflow ∅ two (TwoBranches.handOn "third" 2 0 [30]) = .ok three ∧
      ∃ item ∈ three.nodeExecutionStack.filter hasSeveralInputs,
        dataAt item.data 0 = .full [10] ∧ sourceAt item.source 0 = .null :=
    ⟨_, _, _, rfl, rfl, rfl, _, List.mem_singleton.mpr rfl, by decide, by decide⟩
  obtain ⟨one, two, three, oneReturns, twoReturns, threeReturns, item, onStackItem, hasData, noSource⟩ := calls
  have started : Run workflow (fun _ _ => True) TwoBranches.noneWaiting [] [] := .start rfl
  obtain ⟨_, run, onStack⟩ := started.snoc (List.Perm.refl _) rfl rfl (by decide) trivial oneReturns
  obtain ⟨_, run, onStack⟩ := run.snoc onStack rfl rfl (by decide) trivial twoReturns
  obtain ⟨moved, run, onStack⟩ := run.snoc onStack rfl rfl (by decide) trivial threeReturns
  refine ⟨three, _, moved, run, fun aligned => ?_⟩
  obtain ⟨delivery, _, _, _, _, isSource⟩ := aligned.named item (onStack.mem_iff.mpr onStackItem) 0 [10] hasData
  rw [noSource] at isSource
  cases isSource

end ThreeBranches

end N8n.Core
