import N8n.Core.ConnectionKeys
import N8n.Core.ExecutionLoop
import N8n.Core.WaitingShape
import N8n.Library.Tickets

/-! # The order in which waiting entries are executed

Each entry of `waitingExecution` draws a ticket when `addNodeToBeExecuted` creates
it and hands it in when it moves to the stack: complete, or picked by
`processRunExecutionData` once the stack is empty.  When that follows the order of
the tickets.
-/

namespace N8n.Core

variable {Item : Type}

/-! ## Which entry is picked -/

/-- The numerically smallest of the run indexes also sorts first as a string. -/
def SmallestSortsFirst {α : Type} (nodeWaiting : OrderedMap Nat α) : Prop :=
  ∀ smallest ∈ nodeWaiting.keys, (∀ key ∈ nodeWaiting.keys, smallest ≤ key) →
    ∀ key ∈ nodeWaiting.keys, toString smallest ≤ toString key

theorem toString_antisymm {first second : Nat} (le : toString first ≤ toString second)
    (ge : toString second ≤ toString first) : first = second := by
  have equal := String.le_antisymm le ge
  exact toList_toString_inj (congrArg String.toList equal)

theorem firstRunIndex_eq_some {α : Type} {nodeWaiting : OrderedMap Nat α} {runIndex : Nat}
    (isFirst : firstRunIndex nodeWaiting = some runIndex) :
    runIndex ∈ nodeWaiting.keys ∧ ∀ key ∈ nodeWaiting.keys, toString runIndex ≤ toString key := by
  rw [firstRunIndex] at isFirst
  have sorted := List.pairwise_insertionSort (fun a b : Nat => toString a ≤ toString b) nodeWaiting.keys
  have listed : ∀ key, key ∈ nodeWaiting.keys.insertionSort (fun a b => toString a ≤ toString b) ↔
      key ∈ nodeWaiting.keys := fun key => List.mem_insertionSort _
  cases isSorted : nodeWaiting.keys.insertionSort (fun a b => toString a ≤ toString b) with
  | nil =>
    rw [isSorted] at isFirst
    cases isFirst
  | cons head tail =>
    rw [isSorted] at isFirst sorted listed
    cases isFirst
    refine ⟨(listed _).mp List.mem_cons_self, fun key member => ?_⟩
    cases List.mem_cons.mp ((listed key).mpr member) with
    | inl same => exact same ▸ String.le_refl _
    | inr inTail => exact (List.pairwise_cons.mp sorted).1 key inTail

theorem firstRunIndex_least_iff {α : Type} {nodeWaiting : OrderedMap Nat α} {runIndex : Nat}
    (isFirst : firstRunIndex nodeWaiting = some runIndex) :
    (∀ key ∈ nodeWaiting.keys, runIndex ≤ key) ↔ SmallestSortsFirst nodeWaiting := by
  obtain ⟨listed, sortsFirst⟩ := firstRunIndex_eq_some isFirst
  constructor
  · intro least smallest member isSmallest
    have same : smallest = runIndex := Nat.le_antisymm (isSmallest runIndex listed) (least smallest member)
    rw [same]
    exact sortsFirst
  · intro smallestFirst
    obtain ⟨smallest, member, isSmallest⟩ : ∃ smallest ∈ nodeWaiting.keys,
        ∀ key ∈ nodeWaiting.keys, smallest ≤ key := by
      cases isSorted : objectKeys nodeWaiting with
      | nil =>
        have noKey := mem_objectKeys.mpr listed
        rw [isSorted] at noKey
        cases noKey
      | cons head tail =>
        have sorted := sorted_objectKeys nodeWaiting
        rw [isSorted] at sorted
        refine ⟨head, mem_objectKeys.mp (by rw [isSorted]; exact List.mem_cons_self), fun key member => ?_⟩
        have inSorted := mem_objectKeys.mpr member
        rw [isSorted] at inSorted
        cases List.mem_cons.mp inSorted with
        | inl same => exact Nat.le_of_eq same.symm
        | inr inTail => exact (List.pairwise_cons.mp sorted).1 key inTail
    have same : smallest = runIndex :=
      toString_antisymm (smallestFirst smallest member isSmallest runIndex listed) (sortsFirst smallest member)
    rw [← same]
    exact isSmallest

variable {state : ExecutionState Item}

theorem waitingEntryToTake_some {env : Environment} {nodeName : String}
    {runIndex : Nat} {main : List (Slot (List Item))}
    (returns : waitingEntryToTake env state nodeName = .ok (some (runIndex, main))) :
    firstRunIndex (state.waitingExecution.row nodeName) = some runIndex ∧
      mainOf ((state.waitingExecution.row nodeName).get? runIndex) = .ok main := by
  rw [waitingEntryToTake] at returns
  split at returns
  · cases returns
  dsimp only at returns
  split at returns
  · cases returns
  split at returns
  · cases returns
  split at returns
  · cases returns
  rename_i first isFirst
  obtain ⟨found, isMain, returns⟩ := Loop.bind_inv returns
  split at returns
  · cases returns
    exact ⟨isFirst, isMain⟩
  · cases returns

theorem findEntryToTake_some {env : Environment} {names : List String}
    {entry : WaitingEntry Item} (returns : findEntryToTake env state names = .ok (some entry)) :
    firstRunIndex (state.waitingExecution.row entry.nodeName) = some entry.runIndex ∧
      mainOf ((state.waitingExecution.row entry.nodeName).get? entry.runIndex) = .ok entry.main := by
  induction names with
  | nil => cases returns
  | cons first rest ih =>
    rw [findEntryToTake] at returns
    obtain ⟨found, looked, returns⟩ := Loop.bind_inv returns
    cases found with
    | none => exact ih returns
    | some pair =>
      cases returns
      exact waitingEntryToTake_some looked

/-! ## Entries in layers -/

/-- The entries of one node: each lacks an input, and whatever an entry has, the earlier ones have too. -/
structure Layered (workflow : Workflow) (nodeName : String) (cells : OrderedMap Nat (ITaskDataConnections Item)) :
    Prop where
  shaped : ∀ key entry, cells.get? key = some entry → ∃ inputs main, workflow.mainInputs nodeName = .ok inputs ∧
    entry.get? .main = some main ∧ HasShape inputs.length main ∧ Slot.null ∈ main
  layers : ∀ first second entry entry', cells.get? first = some entry → cells.get? second = some entry' →
    first < second → ∀ index, (dataAt entry' index).isFull = true → (dataAt entry index).isFull = true

def InLayers (workflow : Workflow) (state : ExecutionState Item) : Prop :=
  ∀ nodeName, Layered workflow nodeName (state.waitingExecution.row nodeName)

theorem Layered.empty (workflow : Workflow) (nodeName : String) :
    Layered workflow nodeName (∅ : OrderedMap Nat (ITaskDataConnections Item)) where
  shaped := by simp
  layers := by simp

theorem inLayers_of_noneWaiting {workflow : Workflow}
    (noneWaiting : state.waitingExecution = ∅) : InLayers workflow state := by
  intro nodeName
  rw [noneWaiting]
  exact .empty workflow nodeName

section Layers

variable {workflow : Workflow} {nodeName : String} {cells : OrderedMap Nat (ITaskDataConnections Item)}

theorem Layered.erase (layered : Layered workflow nodeName cells) (key : Nat) :
    Layered workflow nodeName (cells.erase key) where
  shaped := fun other entry found => layered.shaped other entry (get?_of_get?_erase found)
  layers := fun first second entry entry' found found' =>
    layered.layers first second entry entry' (get?_of_get?_erase found) (get?_of_get?_erase found')

theorem Layered.set {key : Nat} {main : List (Slot (List Item))} {inputs : NodeInputConnections}
    (layered : Layered workflow nodeName cells) (isInputs : workflow.mainInputs nodeName = .ok inputs)
    (hasShape : HasShape inputs.length main) (incomplete : Slot.null ∈ main)
    (earlier : ∀ other entry, cells.get? other = some entry → other < key → ∀ index,
      (SparseArray.read main index).isFull = true → (dataAt entry index).isFull = true)
    (later : ∀ other entry, cells.get? other = some entry → key < other → ∀ index,
      (dataAt entry index).isFull = true → (SparseArray.read main index).isFull = true) :
    Layered workflow nodeName (cells.set key (onlyMain main)) := by
  have written : ∀ index, dataAt (onlyMain main) index = SparseArray.read main index :=
    dataAt_of_main (get?_onlyMain main)
  constructor
  · intro other entry found
    rw [OrderedMap.get?_set] at found
    split at found
    · cases found
      exact ⟨inputs, main, isInputs, get?_onlyMain main, hasShape, incomplete⟩
    · exact layered.shaped other entry found
  · intro first second entry entry' found found' less index isFull
    rw [OrderedMap.get?_set] at found found'
    split at found
    · cases found
      rw [if_neg (by omega)] at found'
      rw [written]
      exact later second entry' found' (by omega) index isFull
    · split at found'
      · cases found'
        rw [written] at isFull
        exact earlier first entry found (by omega) index isFull
      · exact layered.layers first second entry entry' found found' less index isFull

def ChangesRow (state next : ExecutionState Item) (nodeName : String)
    (cells : OrderedMap Nat (ITaskDataConnections Item)) : Prop :=
  ∀ name, next.waitingExecution.row name = if name = nodeName then cells else state.waitingExecution.row name

theorem InLayers.change {state next : ExecutionState Item} (inLayers : InLayers workflow state)
    (changes : ChangesRow state next nodeName cells) (layered : Layered workflow nodeName cells) :
    InLayers workflow next := by
  intro name
  rw [changes]
  split
  · rename_i same
    exact same ▸ layered
  · exact inLayers name

theorem InLayers.shapesAgree {state : ExecutionState Item} (inLayers : InLayers workflow state) :
    ShapesAgree workflow state := by
  intro name key entry found
  obtain ⟨inputs, main, isInputs, isMain, hasShape, _⟩ := (inLayers name).shaped key entry found
  exact ⟨inputs, main, isInputs, isMain, hasShape⟩

theorem Layered.completed_least {numberOfInputs index key : Nat} {main : List (Slot (List Item))}
    {items : List Item} (layered : Layered workflow nodeName cells) (nextOpen : NextOpen cells index key main)
    (hasShape : HasShape numberOfInputs main) (isInputs : ∃ inputs, workflow.mainInputs nodeName = .ok inputs ∧
      inputs.length = numberOfInputs)
    (complete : Slot.null ∉ SparseArray.write main index (.full items)) (atInput : index < numberOfInputs) :
    ∀ other ∈ cells.keys, key ≤ other := by
  intro other listed
  by_contra isEarlier
  obtain ⟨entry, found⟩ := OrderedMap.mem_keys.mp listed
  rw [← OrderedMap.get?_eq_some] at found
  obtain ⟨inputs, otherMain, isInputs', isMain, otherShape, lacks⟩ := layered.shaped other entry found
  obtain ⟨inputs', isInputs, rfl⟩ := isInputs
  obtain rfl : inputs' = inputs := Except.ok.inj (isInputs.symm.trans isInputs')
  refine otherShape.null_not_mem_iff.mpr (fun input within => ?_) lacks
  by_cases atIndex : input = index
  · obtain ⟨main', isMain', isFull⟩ := nextOpen.before other entry found (by omega)
    rw [isMain] at isMain'
    cases isMain'
    rw [atIndex]
    exact isFull
  · obtain ⟨openEntry, openFound, openMain⟩ := nextOpen.found
    have written := (hasShape.write atInput items).null_not_mem_iff.mp complete input within
    rw [SparseArray.read_write, if_neg atIndex, ← dataAt_of_main openMain] at written
    rw [← dataAt_of_main isMain]
    exact layered.layers other key entry openEntry found openFound (by omega) input written

end Layers

/-! ## Runs with tickets -/

abbrev History := String → Tickets

/-- The entries that wait at the start were created in the order of their run indexes. -/
def initialHistory (state : ExecutionState Item) : History :=
  fun nodeName => .ofKeys (objectKeys (state.waitingExecution.row nodeName))

/-- The chosen entry hands in its ticket if it has moved to the stack. -/
def settle (next : ExecutionState Item) (nodeName : String) (key : Nat) (tickets : Tickets) : Tickets :=
  if (next.waitingExecution.row nodeName).has key then tickets else tickets.serve key

/-- What a call does to the tickets of its node: it finds an entry or creates one. -/
def ticketsAfter (state next : ExecutionState Item) (delivery : Delivery Item) (tickets : Tickets) : Tickets :=
  let nodeName := delivery.connectionData.node
  let nodeWaiting := state.waitingExecution.row nodeName
  match findWaitingEntry nodeWaiting delivery.connectionData.index (objectKeys nodeWaiting) with
  | .ok (some key) => settle next nodeName key tickets
  | .ok none => settle next nodeName nodeWaiting.size (tickets.create nodeWaiting.size)
  | .error _ => tickets

/-- What happens to waiting entries: data is delivered, or an entry is taken. -/
inductive Event (Item : Type) where
  | deliver (delivery : Delivery Item)
  | take (entry : WaitingEntry Item)

/-- The states a run reaches and what became of the tickets.  The stack changes in any way in between;
an entry is only taken when it is empty.  Every event meets `Meets`. -/
inductive WaitingRun (env : Environment) [Inhabited Item] (Meets : ExecutionState Item → Event Item → Prop)
    (start : ExecutionState Item) : ExecutionState Item → History → Prop
  | start : WaitingRun env Meets start start (initialHistory start)
  | deliver {state next : ExecutionState Item} {history : History} {runData : IRunData Item}
      {delivery : Delivery Item} {inputs : NodeInputConnections} {items : List Item}
      (run : WaitingRun env Meets start state history)
      (delivers : DeliversData env.workflow delivery inputs items) (meets : Meets state (.deliver delivery))
      (returns : addNodeToBeExecuted env.workflow runData state delivery = .ok next) :
      WaitingRun env Meets start next (Function.update history delivery.connectionData.node
        (ticketsAfter state next delivery (history delivery.connectionData.node)))
  | restack {state : ExecutionState Item} {history : History} (run : WaitingRun env Meets start state history)
      (nodeExecutionStack : List (IExecuteData Item)) :
      WaitingRun env Meets start { state with nodeExecutionStack } history
  | take {config next : Config Item} {history : History} {entry : WaitingEntry Item}
      (run : WaitingRun env Meets start config.execution history)
      (isEmpty : config.execution.nodeExecutionStack = [])
      (found : findEntryToTake env config.execution config.execution.waitingExecution.keys = .ok (some entry))
      (meets : Meets config.execution (.take entry)) (returns : takeEntry env entry config = .ok next) :
      WaitingRun env Meets start next.execution (Function.update history entry.nodeName
        (if hasItems entry.main then (history entry.nodeName).serve entry.runIndex
          else (history entry.nodeName).drop entry.runIndex))

/-- What an event must meet: no entry is created under a smaller index than one that waits, and the
smallest run index of the picked node sorts first as a string. -/
def KeepsOrder (state : ExecutionState Item) : Event Item → Prop
  | .deliver delivery =>
    AllTaken (state.waitingExecution.row delivery.connectionData.node) delivery.connectionData.index →
      ∀ key ∈ (state.waitingExecution.row delivery.connectionData.node).keys,
        key ≤ (state.waitingExecution.row delivery.connectionData.node).size
  | .take entry => SmallestSortsFirst (state.waitingExecution.row entry.nodeName)

/-- The entries of each node were executed in the order in which they were created. -/
def OldestFirst (history : History) : Prop := ∀ nodeName, (history nodeName).served.Pairwise (· < ·)

/-! ## The tickets follow the run indexes -/

section Tickets

variable {workflow : Workflow} {nodeName : String} {cells : OrderedMap Nat (ITaskDataConnections Item)}

/-- The tickets of a node are those of its entries, and in order. -/
structure Matches (cells : OrderedMap Nat (ITaskDataConnections Item)) (tickets : Tickets) : Prop where
  inOrder : tickets.InOrder
  sameKeys : ∀ key, key ∈ tickets.keys ↔ key ∈ cells.keys

theorem matches_initialHistory (state : ExecutionState Item) (nodeName : String) :
    Matches (state.waitingExecution.row nodeName) (initialHistory state nodeName) where
  inOrder := by
    refine .ofKeys ?_
    have nodup : (objectKeys (state.waitingExecution.row nodeName)).Nodup :=
      (List.perm_insertionSort _ _).nodup_iff.mpr (OrderedMap.nodup_keys _)
    exact (sorted_objectKeys _).imp₂ (fun _ _ le different => Nat.lt_of_le_of_ne le different) nodup
  sameKeys := by
    intro key
    rw [initialHistory, Tickets.keys_ofKeys]
    exact mem_objectKeys

variable {tickets : Tickets} {key : Nat}

theorem Matches.serve (same : Matches cells tickets)
    (least : ∀ other ∈ cells.keys, key ≤ other) : Matches (cells.erase key) (tickets.serve key) where
  inOrder := same.inOrder.serve fun other listed => least other ((same.sameKeys other).mp listed)
  sameKeys := by
    intro other
    simp [OrderedMap.mem_keys_erase, same.sameKeys, and_comm]

theorem Matches.drop (same : Matches cells tickets) (key : Nat) :
    Matches (cells.erase key) (tickets.drop key) where
  inOrder := same.inOrder.drop key
  sameKeys := by
    intro other
    simp [OrderedMap.mem_keys_erase, same.sameKeys, and_comm]

theorem Matches.create (same : Matches cells tickets)
    (isGreatest : ∀ other ∈ cells.keys, other ≤ key) (entry : ITaskDataConnections Item) :
    Matches (cells.set key entry) (tickets.create key) where
  inOrder := same.inOrder.create fun other listed => isGreatest other ((same.sameKeys other).mp listed)
  sameKeys := by
    intro other
    rw [Tickets.keys_create, List.mem_append, List.mem_filter, List.mem_singleton, OrderedMap.mem_keys_set,
      same.sameKeys]
    by_cases isKey : other = key
    · simp [isKey]
    · simp [isKey]

theorem Matches.keep (same : Matches cells tickets) (listed : key ∈ cells.keys)
    (entry : ITaskDataConnections Item) : Matches (cells.set key entry) tickets where
  inOrder := same.inOrder
  sameKeys := by
    intro other
    rw [OrderedMap.mem_keys_set, same.sameKeys]
    constructor
    · intro old
      exact .inr old
    · intro either
      cases either with
      | inl isKey => exact isKey ▸ listed
      | inr old => exact old

/-- The waiting entries and their tickets after part of a run. -/
structure Tracks (workflow : Workflow) (state : ExecutionState Item) (history : History) : Prop where
  inLayers : InLayers workflow state
  tickets : ∀ nodeName, Matches (state.waitingExecution.row nodeName) (history nodeName)

variable {state next : ExecutionState Item} {history : History}

theorem Tracks.change
    (tracks : Tracks workflow state history) (changes : ChangesRow state next nodeName cells)
    (layered : Layered workflow nodeName cells) (same : Matches cells tickets) :
    Tracks workflow next (Function.update history nodeName tickets) where
  inLayers := tracks.inLayers.change changes layered
  tickets := by
    intro name
    rw [changes]
    by_cases isNode : name = nodeName
    · rw [if_pos isNode, isNode, Function.update_self]
      exact same
    · rw [if_neg isNode, Function.update_of_ne isNode]
      exact tracks.tickets name

theorem settle_of_erased
    (changes : ChangesRow state next nodeName (cells.erase key)) (tickets : Tickets) :
    settle next nodeName key tickets = tickets.serve key := by
  rw [settle, changes, if_pos rfl, if_neg]
  rw [OrderedMap.has_iff, OrderedMap.mem_keys_erase]
  exact fun listed => listed.1 rfl

theorem settle_of_set {entry : ITaskDataConnections Item}
    (changes : ChangesRow state next nodeName (cells.set key entry)) (tickets : Tickets) :
    settle next nodeName key tickets = tickets := by
  rw [settle, changes, if_pos rfl, if_pos]
  exact OrderedMap.has_iff.mpr (OrderedMap.mem_keys_set.mpr (.inl rfl))

variable {inputs : NodeInputConnections} {delivery : Delivery Item}

theorem Tracks.deliver_waiting {items : List Item}
    {main : List (Slot (List Item))} {sourceMain : List (Slot ISourceData)}
    (tracks : Tracks workflow state history) (delivers : DeliversData workflow delivery inputs items)
    (nextOpen : NextOpen (state.waitingExecution.row delivery.connectionData.node)
      delivery.connectionData.index key main)
    (outcome : Outcome workflow state next inputs.length delivery key main sourceMain) :
    Tracks workflow next (Function.update history delivery.connectionData.node
      (settle next delivery.connectionData.node key (history delivery.connectionData.node))) := by
  have layered := tracks.inLayers delivery.connectionData.node
  have same := tracks.tickets delivery.connectionData.node
  have hasShape : HasShape inputs.length main :=
    tracks.inLayers.shapesAgree.takes delivers.isInputs (.inl ⟨key, nextOpen⟩)
  obtain ⟨entry, found, isMain⟩ := nextOpen.found
  have listed : key ∈ (state.waitingExecution.row delivery.connectionData.node).keys :=
    OrderedMap.mem_keys.mpr ⟨entry, OrderedMap.get?_eq_some.mp found⟩
  cases outcome with
  | moved noneMissing node data isSource source stack changes =>
    rw [settle_of_erased changes.waiting]
    rw [delivers.hasData] at noneMissing
    have least := layered.completed_least nextOpen hasShape ⟨inputs, delivers.isInputs, rfl⟩ noneMissing
      delivers.atInput
    exact tracks.change changes.waiting (layered.erase key) (same.serve least)
  | kept missing source sourceFound stack changes =>
    rw [settle_of_set changes.waiting]
    rw [delivers.hasData] at missing changes
    refine tracks.change changes.waiting (layered.set delivers.isInputs (hasShape.write delivers.atInput items) missing
      ?_ ?_) (same.keep listed _)
    · intro other otherEntry otherFound isEarlier index isFull
      rw [SparseArray.read_write] at isFull
      split at isFull
      · rename_i atIndex
        obtain ⟨otherMain, isOtherMain, isFull⟩ := nextOpen.before other otherEntry otherFound isEarlier
        rw [dataAt_of_main isOtherMain, atIndex]
        exact isFull
      · rw [← dataAt_of_main isMain] at isFull
        exact layered.layers other key otherEntry entry otherFound found isEarlier index isFull
    · intro other otherEntry otherFound isLater index isFull
      have before := layered.layers key other entry otherEntry found otherFound isLater index isFull
      rw [dataAt_of_main isMain] at before
      rw [SparseArray.read_write]
      split
      · rfl
      · exact before

theorem Tracks.deliver_new {items : List Item}
    {sourceMain : List (Slot ISourceData)} (tracks : Tracks workflow state history)
    (delivers : DeliversData workflow delivery inputs items)
    (allTaken : AllTaken (state.waitingExecution.row delivery.connectionData.node) delivery.connectionData.index)
    (isGreatest : ∀ key ∈ (state.waitingExecution.row delivery.connectionData.node).keys,
      key ≤ (state.waitingExecution.row delivery.connectionData.node).size)
    (outcome : Outcome workflow state next inputs.length delivery
      (state.waitingExecution.row delivery.connectionData.node).size (List.replicate inputs.length .null)
      sourceMain) :
    Tracks workflow next (Function.update history delivery.connectionData.node
      (settle next delivery.connectionData.node
        (state.waitingExecution.row delivery.connectionData.node).size
        ((history delivery.connectionData.node).create
          (state.waitingExecution.row delivery.connectionData.node).size))) := by
  have layered := tracks.inLayers delivery.connectionData.node
  have same := tracks.tickets delivery.connectionData.node
  have empty : HasShape inputs.length (List.replicate inputs.length (Slot.null : Slot (List Item))) :=
    hasShape_replicate inputs.length
  have written := empty.write delivers.atInput items
  cases outcome with
  | moved noneMissing node data isSource source stack changes =>
    -- the node has another input
    rw [delivers.hasData] at noneMissing
    have several := delivers.several
    have atInput := delivers.atInput
    obtain ⟨other, within, different⟩ : ∃ other < inputs.length, other ≠ delivery.connectionData.index := by
      by_cases isFirst : delivery.connectionData.index = 0
      · exact ⟨1, several, by omega⟩
      · exact ⟨0, by omega, fun same => isFirst same.symm⟩
    have isFull := written.null_not_mem_iff.mp noneMissing other within
    rw [SparseArray.read_write, if_neg different, SparseArray.read_replicate_null, if_pos within] at isFull
    cases isFull
  | kept missing source sourceFound stack changes =>
    rw [settle_of_set changes.waiting]
    rw [delivers.hasData] at missing changes
    refine tracks.change changes.waiting (layered.set delivers.isInputs written missing ?_ ?_)
      (same.create isGreatest _)
    · intro other otherEntry otherFound _ index isFull
      rw [SparseArray.read_write] at isFull
      split at isFull
      · rename_i atIndex
        obtain ⟨otherMain, isOtherMain, isFull⟩ := allTaken other otherEntry otherFound
        rw [dataAt_of_main isOtherMain, atIndex]
        exact isFull
      · rw [SparseArray.read_replicate_null] at isFull
        split at isFull <;> cases isFull
    · intro other otherEntry otherFound isLater
      have atMost := isGreatest other (OrderedMap.mem_keys.mpr ⟨otherEntry, OrderedMap.get?_eq_some.mp otherFound⟩)
      omega

theorem search_returns {runData : IRunData Item} [Inhabited Item]
    (isInputs : workflow.mainInputs delivery.connectionData.node = .ok inputs) (several : 1 < inputs.length)
    (returns : addNodeToBeExecuted workflow runData state delivery = .ok next) :
    ∃ found, findWaitingEntry (state.waitingExecution.row delivery.connectionData.node)
      delivery.connectionData.index (objectKeys (state.waitingExecution.row delivery.connectionData.node)) =
        .ok found := by
  obtain ⟨inputs', isInputs', returns⟩ := Loop.bind_inv returns
  obtain rfl : inputs' = inputs := Except.ok.inj (isInputs'.symm.trans isInputs)
  rw [if_pos several] at returns
  obtain ⟨stored, store, _⟩ := Loop.bind_inv returns
  rw [storeDelivery] at store
  obtain ⟨found, search, _⟩ := Loop.bind_inv store
  have sameRow : (openWaiting state delivery.connectionData.node).waitingExecution.row
      delivery.connectionData.node = state.waitingExecution.row delivery.connectionData.node := by
    rw [(openWaiting_changes state delivery.connectionData.node 0).waiting, if_pos rfl]
  rw [sameRow] at search
  exact ⟨found, search⟩

theorem Tracks.deliver {runData : IRunData Item}
    [Inhabited Item] {items : List Item}
    (tracks : Tracks workflow state history) (delivers : DeliversData workflow delivery inputs items)
    (keepsOrder : KeepsOrder state (.deliver delivery))
    (returns : addNodeToBeExecuted workflow runData state delivery = .ok next) :
    Tracks workflow next (Function.update history delivery.connectionData.node
      (ticketsAfter state next delivery (history delivery.connectionData.node))) := by
  obtain ⟨key, main, sourceMain, chosen, outcome⟩ :=
    addNodeToBeExecuted_cases delivers.isInputs delivers.several returns
  obtain ⟨found, search⟩ := search_returns delivers.isInputs delivers.several returns
  simp only [ticketsAfter, search]
  cases found with
  | some key' =>
    obtain ⟨_, nextOpen'⟩ := findWaitingEntry_some (sorted_objectKeys _)
      (fun _ member => mem_objectKeys.mpr member) search
    cases chosen with
    | waiting nextOpen sourceFound sourceMainFound =>
      rw [Nat.le_antisymm (nextOpen.le nextOpen') (nextOpen'.le nextOpen)]
      exact tracks.deliver_waiting delivers nextOpen outcome
    | new allTaken => exact absurd allTaken nextOpen'.not_allTaken
  | none =>
    have allTaken : AllTaken (state.waitingExecution.row delivery.connectionData.node)
        delivery.connectionData.index := fun other entry otherFound => findWaitingEntry_none search other
      (mem_objectKeys.mpr (OrderedMap.mem_keys.mpr ⟨entry, OrderedMap.get?_eq_some.mp otherFound⟩)) entry otherFound
    cases chosen with
    | waiting nextOpen sourceFound sourceMainFound => exact absurd allTaken nextOpen.not_allTaken
    | new _ => exact tracks.deliver_new delivers allTaken (keepsOrder allTaken) outcome

end Tickets

theorem takeEntry_changes {env : Environment} {entry : WaitingEntry Item} {config next : Config Item}
    (returns : takeEntry env entry config = .ok next) :
    ChangesRow config.execution next.execution entry.nodeName
      ((config.execution.waitingExecution.row entry.nodeName).erase entry.runIndex) := by
  rw [takeEntry] at returns
  dsimp only at returns
  split at returns
  · cases returns
  split at returns
  · cases returns
    intro name
    rw [(removeWaiting_changes _ _ _).waiting]
  · cases returns
    exact (removeWaiting_changes _ _ _).waiting

theorem Tracks.take {env : Environment} {config next : Config Item} {history : History}
    {entry : WaitingEntry Item} (tracks : Tracks env.workflow config.execution history)
    (found : findEntryToTake env config.execution config.execution.waitingExecution.keys = .ok (some entry))
    (keepsOrder : KeepsOrder config.execution (.take entry)) (returns : takeEntry env entry config = .ok next) :
    Tracks env.workflow next.execution (Function.update history entry.nodeName
      (if hasItems entry.main then (history entry.nodeName).serve entry.runIndex
        else (history entry.nodeName).drop entry.runIndex)) := by
  have isFirst := (findEntryToTake_some found).1
  have least := (firstRunIndex_least_iff isFirst).mpr keepsOrder
  refine tracks.change (takeEntry_changes returns) ((tracks.inLayers entry.nodeName).erase entry.runIndex) ?_
  split
  · exact (tracks.tickets entry.nodeName).serve least
  · exact (tracks.tickets entry.nodeName).drop entry.runIndex

theorem WaitingRun.tracks {env : Environment} [Inhabited Item] {start state : ExecutionState Item}
    {history : History} (inLayers : InLayers env.workflow start)
    (run : WaitingRun env KeepsOrder start state history) : Tracks env.workflow state history := by
  induction run with
  | start => exact ⟨inLayers, matches_initialHistory start⟩
  | deliver run delivers meets returns tracks => exact tracks.deliver delivers meets returns
  | restack run nodeExecutionStack tracks => exact ⟨tracks.inLayers, tracks.tickets⟩
  | take run isEmpty found meets returns tracks => exact tracks.take found meets returns

/-- In every run that keeps the order the entries of a node are executed as they were created, and a
picked entry has the smallest run index exactly when that one sorts first. -/
theorem drained_oldest_first {env : Environment} [Inhabited Item] {start state : ExecutionState Item}
    {history : History} (inLayers : InLayers env.workflow start)
    (run : WaitingRun env KeepsOrder start state history) :
    OldestFirst history ∧ ∀ entry,
      findEntryToTake env state state.waitingExecution.keys = .ok (some entry) →
        ((∀ key ∈ (state.waitingExecution.row entry.nodeName).keys, entry.runIndex ≤ key) ↔
          SmallestSortsFirst (state.waitingExecution.row entry.nodeName)) := by
  constructor
  · intro nodeName
    exact ((run.tracks inLayers).tickets nodeName).inOrder.served
  · intro entry found
    exact firstRunIndex_least_iff (findEntryToTake_some found).1

/-! ## The runs of the loop -/

/-- Every main connection enters a main input its node has, as the constructor of `Workflow` makes it. -/
def EntersInputs (workflow : Workflow) : Prop :=
  ∀ nodeName outputs slot connection inputs,
    (workflow.connectionsBySourceNode.get? nodeName).bind (·.get? .main) = some outputs → slot ∈ outputs →
      connection ∈ slot.getD [] → workflow.mainInputs connection.node = .ok inputs →
        connection.index < inputs.length

theorem mem_connectionsToFollow {workflow : Workflow} {nodeName : String} {nodeSuccessData : List (Slot (List Item))}
    {toFollow : List (IConnection × Nat)} {connectionData : IConnection} {outputIndex : Nat}
    (returns : connectionsToFollow workflow nodeName nodeSuccessData = .ok toFollow)
    (member : (connectionData, outputIndex) ∈ toFollow) :
    (∃ outputs slot, (workflow.connectionsBySourceNode.get? nodeName).bind (·.get? .main) = some outputs ∧
      slot ∈ outputs ∧ connectionData ∈ slot.getD []) ∧
    ∃ items, SparseArray.read nodeSuccessData outputIndex = .full items := by
  rw [connectionsToFollow] at returns
  split at returns
  · cases returns
    cases member
  · rename_i outputs isOutputs
    dsimp only at returns
    split at returns
    · cases returns
    · cases returns
      obtain ⟨inAll, keeps⟩ := List.mem_filter.mp member
      obtain ⟨⟨slot, index⟩, placed, inSlot⟩ := List.mem_flatMap.mp inAll
      obtain ⟨connection, inOutput, same⟩ := List.mem_map.mp inSlot
      cases same
      refine ⟨⟨outputs, slot, isOutputs, (List.mem_zipIdx' placed).2 ▸ List.getElem_mem _, inOutput⟩, ?_⟩
      dsimp only at keeps
      split at keeps
      · rename_i items isFull
        exact ⟨items, isFull⟩
      · cases keeps

def Any (_ : ExecutionState Item) (_ : Event Item) : Prop := True

/-- Some waiting run leads to the state. -/
def Reaches (env : Environment) [Inhabited Item] (start state : ExecutionState Item) : Prop :=
  ∃ history, WaitingRun env Any start state history

section LoopRuns

variable {env : Environment} [Inhabited Item] {start state next : ExecutionState Item}

theorem Reaches.restack (reaches : Reaches env start state) (nodeExecutionStack : List (IExecuteData Item)) :
    Reaches env start { state with nodeExecutionStack } := by
  obtain ⟨history, run⟩ := reaches
  exact ⟨history, run.restack nodeExecutionStack⟩

theorem Reaches.addNode {runData : IRunData Item} {delivery : Delivery Item} {items : List Item}
    (reaches : Reaches env start state) (hasData : delivery.data = .full items)
    (atInput : ∀ inputs, env.workflow.mainInputs delivery.connectionData.node = .ok inputs →
      delivery.connectionData.index < inputs.length)
    (returns : addNodeToBeExecuted env.workflow runData state delivery = .ok next) : Reaches env start next := by
  obtain ⟨inputs, isInputs, rest⟩ := Loop.bind_inv returns
  by_cases several : 1 < inputs.length
  · obtain ⟨history, run⟩ := reaches
    exact ⟨_, run.deliver ⟨isInputs, several, atInput inputs isInputs, hasData⟩ trivial returns⟩
  · rw [if_neg several] at rest
    cases rest
    exact reaches.restack _

theorem Reaches.handOver {runData : IRunData Item} {nodeName : String} {runIndex : Nat}
    {nodeSuccessData : List (Slot (List Item))} (reaches : Reaches env start state)
    (enters : EntersInputs env.workflow)
    (returns : handOver env.workflow runData nodeName runIndex nodeSuccessData state = .ok next) :
    Reaches env start next := by
  obtain ⟨toFollow, follows, returns⟩ := Loop.bind_inv returns
  dsimp only at returns
  refine Loop.foldlM_preserves (Reaches env start) ?_ reaches returns
  intro connection member before after reachesBefore turn
  have followed : connection ∈ toFollow := by
    split at member
    · obtain ⟨triple, sorted, rfl⟩ := List.mem_map.mp member
      obtain ⟨pair, inList, rfl⟩ := List.mem_map.mp ((List.mem_insertionSort _).mp sorted)
      exact inList
    · exact member
  obtain ⟨⟨outputs, slot, isOutputs, inOutputs, inSlot⟩, items, isFull⟩ := mem_connectionsToFollow follows followed
  have hasData : Delivery.data ⟨connection.1, connection.2, nodeName, some nodeSuccessData, runIndex⟩ =
    .full items := isFull
  exact reachesBefore.addNode hasData
    (fun inputs => enters nodeName outputs slot connection.1 inputs isOutputs inOutputs inSlot) turn

theorem Reaches.finishNode {node : INode} {runIndex : Nat} {nodeSuccessData : List (Slot (List Item))}
    {config final : Config Item} (reaches : Reaches env start config.execution)
    (enters : EntersInputs env.workflow)
    (returns : finishNode env node runIndex nodeSuccessData config = .ok final) :
    Reaches env start final.execution := by
  rw [N8n.Core.finishNode] at returns
  split at returns
  · cases returns
  dsimp only at returns
  split at returns
  · cases returns
    exact reaches
  · obtain ⟨execution, handsOver, returns⟩ := Loop.bind_inv returns
    cases returns
    exact reaches.handOver enters handsOver

theorem Reaches.executeNext {attempted : Attempted Item} {config final : Config Item}
    (reaches : Reaches env start config.execution) (enters : EntersInputs env.workflow)
    (returns : executeNext env attempted config = .ok final) : Reaches env start final.execution := by
  rw [N8n.Core.executeNext] at returns
  split at returns
  · cases returns
    exact reaches
  rename_i executionData rest isStack
  split at returns
  · cases returns
  rename_i node isNode
  dsimp only at returns
  split at returns
  · cases returns
  split at returns
  · cases returns
    exact reaches.restack rest
  obtain ⟨dataMissing, _, returns⟩ := Loop.bind_inv returns
  split at returns
  · cases returns
    exact reaches.restack _
  have taken := reaches.restack rest
  cases attempted with
  | nothing =>
    cases returns
    exact taken
  | succeeded nodeSuccessData => exact taken.finishNode enters returns
  | failed nodeSuccessData =>
    dsimp only at returns
    split at returns
    · split at returns
      · cases returns
      · exact taken.finishNode enters returns
    · cases returns
      exact reaches

theorem Reaches.lookAtWaiting {config final : Config Item} (reaches : Reaches env start config.execution)
    (returns : lookAtWaiting env config = .ok final) : Reaches env start final.execution := by
  rw [N8n.Core.lookAtWaiting] at returns
  split at returns
  · cases returns
    exact reaches
  rename_i isEmpty
  obtain ⟨found, search, returns⟩ := Loop.bind_inv returns
  cases found with
  | none =>
    cases returns
    exact reaches
  | some entry =>
    obtain ⟨history, run⟩ := reaches
    exact ⟨_, run.take (by simpa using isEmpty) search trivial returns⟩

/-- The execution loop refines the runs of its waiting entries. -/
theorem loopRun_reaches {Meets : Attempted Item → Config Item → Prop} {first config : Config Item}
    (enters : EntersInputs env.workflow) (run : LoopRun env Meets first config) :
    Reaches env first.execution config.execution := by
  induction run with
  | start => exact ⟨_, .start⟩
  | step run goesOn meets returns reaches =>
    rw [N8n.Core.step] at returns
    split at returns
    · exact reaches.executeNext enters returns
    · exact reaches.lookAtWaiting returns
    · cases returns
      exact reaches

end LoopRuns

theorem entersInputs_new {nodes : List INode} {connections : IConnections} {settings : IWorkflowSettings}
    (allMain : ∀ nodeName outputs slot connection,
      (connections.get? nodeName).bind (·.get? .main) = some outputs → slot ∈ outputs →
        connection ∈ slot.getD [] → connection.type = .main) :
    EntersInputs (.new nodes connections settings) := by
  intro nodeName outputs slot connection inputs isOutputs inOutputs inSlot isInputs
  obtain ⟨nodeConnections, listed, typed⟩ := Option.bind_eq_some_iff.mp isOutputs
  obtain ⟨index, within, rfl⟩ := List.getElem_of_mem inOutputs
  have placed : (outputs[index], index) ∈ outputs.zipIdx := List.mk_mem_zipIdx_iff_getElem?.mpr (by simp [within])
  have hasInput := hasInput_getConnectionsByDestination (OrderedMap.get?_eq_some.mp listed)
    (OrderedMap.get?_eq_some.mp typed) placed inSlot
  rw [allMain nodeName outputs _ connection isOutputs inOutputs inSlot] at hasInput
  have entered : HasInput (Workflow.new nodes connections settings).connectionsByDestinationNode connection.node
    .main connection.index := hasInput
  obtain ⟨inputs', isInputs', within'⟩ := Workflow.mainInputs_of_hasInput entered
  rw [isInputs] at isInputs'
  cases isInputs'
  exact within'

namespace TwoBranches

def handOnLeft (runIndex : Nat) : Delivery Nat := handOn "left" 0 runIndex [runIndex]

def afterLeft : Nat → ExecutionState Nat
  | 0 => noneWaiting
  | runs + 1 =>
    match addNodeToBeExecuted workflow ∅ (afterLeft runs) (handOnLeft runs) with
    | .ok next => next
    | .error _ => noneWaiting

def historyAfterLeft : Nat → History
  | 0 => initialHistory noneWaiting
  | runs + 1 => Function.update (historyAfterLeft runs) "merge"
    (ticketsAfter (afterLeft runs) (afterLeft (runs + 1)) (handOnLeft runs) (historyAfterLeft runs "merge"))

theorem delivers_handOnLeft (runIndex : Nat) :
    ∃ inputs, DeliversData workflow (handOnLeft runIndex) inputs [runIndex] := by
  have isInputs : ∃ inputs, workflow.mainInputs "merge" = .ok inputs ∧ inputs.length = 2 := ⟨_, rfl, rfl⟩
  obtain ⟨inputs, isInputs, two⟩ := isInputs
  have atInput : (handOnLeft runIndex).connectionData.index = 0 := rfl
  exact ⟨inputs, isInputs, by omega, by omega, rfl⟩

theorem afterLeft_run {Meets : ExecutionState Nat → Event Nat → Prop} {runs : Nat}
    (returns : ∀ run < runs, (addNodeToBeExecuted workflow ∅ (afterLeft run) (handOnLeft run)).isOk = true)
    (meets : ∀ run < runs, Meets (afterLeft run) (.deliver (handOnLeft run))) :
    WaitingRun env Meets noneWaiting (afterLeft runs) (historyAfterLeft runs) := by
  induction runs with
  | zero => exact .start
  | succ runs ih =>
    have before := ih (fun run less => returns run (by omega)) (fun run less => meets run (by omega))
    obtain ⟨inputs, delivers⟩ := delivers_handOnLeft runs
    have called : addNodeToBeExecuted workflow ∅ (afterLeft runs) (handOnLeft runs) =
        .ok (afterLeft (runs + 1)) := by
      have isOk := returns runs (by omega)
      rw [afterLeft]
      split
      · assumption
      · rename_i error fails
        rw [fails] at isOk
        cases isOk
    exact before.deliver delivers (meets runs (by omega)) called

def configOf (state : ExecutionState Nat) : Config Nat where
  phase := .waitingNodes
  execution := { state with nodeExecutionStack := [] }
  runData := ∅

def entryOfLeft (runIndex : Nat) : WaitingEntry Nat := ⟨"merge", runIndex, [.full [runIndex], .null]⟩

def Picks (state : ExecutionState Nat) (runIndex : Nat) (next : Config Nat) : Prop :=
  findEntryToTake env (configOf state).execution state.waitingExecution.keys =
      .ok (some (entryOfLeft runIndex)) ∧
    takeEntry env (entryOfLeft runIndex) (configOf state) = .ok next

theorem picks_run {Meets : ExecutionState Nat → Event Nat → Prop} {state : ExecutionState Nat} {runIndex : Nat}
    {next : Config Nat} {history : History} (run : WaitingRun env Meets noneWaiting state history)
    (picks : Picks state runIndex next) (meets : Meets (configOf state).execution (.take (entryOfLeft runIndex))) :
    WaitingRun env Meets noneWaiting next.execution
      (Function.update history "merge" ((history "merge").serve runIndex)) := by
  have restacked : WaitingRun env Meets noneWaiting (configOf state).execution history := run.restack []
  exact restacked.take rfl picks.1 meets picks.2

/-- Two runs of the left branch wait, and are executed one after the other. -/
theorem entersInputs : EntersInputs env.workflow := by
  have allMain : ∀ entry ∈ workflow.connectionsBySourceNode.entries, ∀ typed ∈ entry.2.entries, ∀ slot ∈ typed.2,
      ∀ connection ∈ slot.getD [], connection.type = .main := by decide
  refine entersInputs_new fun nodeName outputs slot connection isOutputs inOutputs inSlot => ?_
  obtain ⟨nodeConnections, listed, typed⟩ := Option.bind_eq_some_iff.mp isOutputs
  exact allMain _ (OrderedMap.get?_eq_some.mp listed) _
    (OrderedMap.get?_eq_some.mp typed) slot inOutputs connection inSlot

theorem loopRun_reaches_right : ∃ config : Config Nat,
    Reaches env (startWith [right]).execution config.execution ∧
      config.execution.waitingExecution.keys = ["merge"] := by
  have first : ∃ config, step env (.succeeded [.full [20]]) (startWith [right]) = .ok config ∧
    config.execution.waitingExecution.keys = ["merge"] := ⟨_, rfl, rfl⟩
  obtain ⟨config, returns, waiting⟩ := first
  have run : LoopRun env (fun _ _ => True) (startWith [right]) config :=
    LoopRun.start.step (fun ended => by cases ended.2) trivial returns
  exact ⟨config, loopRun_reaches entersInputs run, waiting⟩

theorem drained_oldest_first_two : ∃ state history, WaitingRun env KeepsOrder noneWaiting state history ∧
    (history "merge").served = [0, 1] ∧ OldestFirst history := by
  have picks : ∃ first second, Picks (afterLeft 2) 0 first ∧ Picks first.execution 1 second ∧
      (first.execution.waitingExecution.row "merge").keys = [1] :=
    ⟨_, _, ⟨rfl, rfl⟩, ⟨rfl, rfl⟩, rfl⟩
  obtain ⟨first, second, picksFirst, picksSecond, oneLeft⟩ := picks
  have twoLeft : ((afterLeft 2).waitingExecution.row "merge").keys = [0, 1] := rfl
  have isGreatest : ∀ run < 2, ∀ key ∈ ((afterLeft run).waitingExecution.row "merge").keys,
      key ≤ ((afterLeft run).waitingExecution.row "merge").size := by decide
  have run : WaitingRun env KeepsOrder noneWaiting (afterLeft 2) (historyAfterLeft 2) :=
    afterLeft_run (by decide) fun run less _ => isGreatest run less
  have sortsFirst : ∀ {keys : List Nat} {cells : OrderedMap Nat (ITaskDataConnections Nat)}, cells.keys = keys →
      (∀ first ∈ keys, ∀ second ∈ keys, first ≤ second → toString first ≤ toString second) →
        SmallestSortsFirst cells := by
    intro keys cells isKeys ascends smallest member isSmallest key listed
    rw [isKeys] at member isSmallest listed
    exact ascends smallest member key listed (isSmallest key listed)
  have afterFirst := picks_run run picksFirst (sortsFirst twoLeft (by decide))
  have afterSecond := picks_run afterFirst picksSecond (sortsFirst oneLeft (by decide))
  exact ⟨_, _, afterSecond, rfl, (drained_oldest_first (inLayers_of_noneWaiting rfl) afterSecond).1⟩

set_option maxRecDepth 4000 in
/-- Eleven runs of the left branch wait.  After `0` and `1` the entry `10` is picked, and `2` later. -/
theorem not_drained_oldest_first : ∃ state history, WaitingRun env Any noneWaiting state history ∧
    ¬OldestFirst history := by
  have picks : ∃ first second third fourth, Picks (afterLeft 11) 0 first ∧ Picks first.execution 1 second ∧
      Picks second.execution 10 third ∧ Picks third.execution 2 fourth :=
    ⟨_, _, _, _, ⟨rfl, rfl⟩, ⟨rfl, rfl⟩, ⟨rfl, rfl⟩, ⟨rfl, rfl⟩⟩
  obtain ⟨first, second, third, fourth, picksFirst, picksSecond, picksThird, picksFourth⟩ := picks
  have run : WaitingRun env Any noneWaiting (afterLeft 11) (historyAfterLeft 11) :=
    afterLeft_run (by decide) (fun _ _ => trivial)
  have taken := picks_run (picks_run (picks_run run picksFirst trivial) picksSecond trivial) picksThird trivial
  have takenLast := picks_run taken picksFourth trivial
  refine ⟨_, _, takenLast, fun oldestFirst => ?_⟩
  have tickets : historyAfterLeft 11 "merge" = ⟨11, (List.range 11).map fun run => (run, run), []⟩ := rfl
  have ordered := oldestFirst "merge"
  simp only [Function.update_self, tickets] at ordered
  exact absurd ordered (by decide)

end TwoBranches

end N8n.Core
