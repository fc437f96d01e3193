import N8n.Core.GraphExport
import N8n.Core.RecreateNodeExecutionStack

/-! # The waiting entries of a partial execution

Which waiting entries `recreateNodeExecutionStack` makes, and when they have the
shape `addNodeToBeExecuted` relies on: one slot for each input, `null` where
there is no data.
-/

namespace N8n.Core

variable {Item : Type}

/-! ## Which entries are made -/

/-- Some run of the connection's source put items on its output. -/
def Carries (runData : IRunData Item) (connection : GraphConnection) : Prop :=
  ∃ incoming, getIncomingDataFromAnyRun runData connection.from.name connection.type
    connection.outputIndex = .ok (some incoming)

def mainSlots (entry : ITaskDataConnections Item) : List (Slot (List Item)) := (entry.get? .main).getD []

/-- The main inputs of an entry that is filled with what the connections carry. -/
structure EntryFor (runData : IRunData Item) (connections : List GraphConnection)
    (entry : ITaskDataConnections Item) : Prop where
  full : ∀ index, (SparseArray.read (mainSlots entry) index).isFull = true ↔
    ∃ connection ∈ connections, connection.type = .main ∧ Carries runData connection ∧
      connection.inputIndex = index
  notNull : ∀ index, SparseArray.read (mainSlots entry) index ≠ .null
  bounded : ∀ bound, (∀ connection ∈ connections, connection.type = .main → connection.inputIndex < bound) →
    (mainSlots entry).length ≤ bound

section

variable {connection : GraphConnection} {runData : IRunData Item} {graph : DirectedGraph}
  {state next : ExecutionState Item}

theorem addIncoming_inv {nodeName : String} {runIndex : Nat}
    (returns : addIncoming runData nodeName runIndex state connection = .ok next) :
    (¬Carries runData connection ∧ next.waitingExecution = state.waitingExecution) ∨
      (Carries runData connection ∧ ∃ items, next.waitingExecution = addWaitingExecution
        state.waitingExecution nodeName runIndex connection.type connection.inputIndex (.full items)) := by
  obtain ⟨incoming, found, returns⟩ := Loop.bind_inv returns
  cases incoming with
  | none =>
    cases returns
    refine .inl ⟨fun carries => ?_, rfl⟩
    obtain ⟨_, isSome⟩ := carries
    rw [found] at isSome
    cases isSome
  | some nodeIncomingData =>
    cases returns
    exact .inr ⟨⟨nodeIncomingData, found⟩, nodeIncomingData.data, rfl⟩

variable {connections : List GraphConnection}

theorem EntryFor.skip {entry : ITaskDataConnections Item}
    (entryFor : EntryFor runData connections entry) (carriesNothing : ¬Carries runData connection) :
    EntryFor runData (connections ++ [connection]) entry := by
  refine ⟨fun index => ?_, entryFor.notNull, fun bound below => entryFor.bounded bound fun other member =>
    below other (List.mem_append_left _ member)⟩
  rw [entryFor.full]
  constructor
  · intro holds
    obtain ⟨other, member, rest⟩ := holds
    exact ⟨other, List.mem_append_left _ member, rest⟩
  · intro holds
    obtain ⟨other, member, isMain, carries, atIndex⟩ := holds
    cases List.mem_append.mp member with
    | inl old => exact ⟨other, old, isMain, carries, atIndex⟩
    | inr new =>
      rw [List.mem_singleton.mp new] at carries
      exact absurd carries carriesNothing

theorem EntryFor.add {entry : ITaskDataConnections Item}
    (entryFor : EntryFor runData connections entry) (carries : Carries runData connection) (items : List Item) :
    EntryFor runData (connections ++ [connection])
      (entry.set connection.type (SparseArray.write ((entry.get? connection.type).getD [])
        connection.inputIndex (.full items))) := by
  by_cases isMain : connection.type = .main
  · have slots : mainSlots (entry.set connection.type (SparseArray.write
        ((entry.get? connection.type).getD []) connection.inputIndex (.full items))) =
        SparseArray.write (mainSlots entry) connection.inputIndex (.full items) := by
      rw [isMain, mainSlots, OrderedMap.get?_set_self]
      rfl
    refine ⟨fun index => ?_, fun index => ?_, fun bound below => ?_⟩
    · rw [slots, SparseArray.read_write]
      split
      · rename_i same
        exact ⟨fun _ => ⟨connection, by simp, isMain, carries, same.symm⟩, fun _ => rfl⟩
      · rename_i different
        rw [entryFor.full]
        constructor
        · intro holds
          obtain ⟨other, member, rest⟩ := holds
          exact ⟨other, List.mem_append_left _ member, rest⟩
        · intro holds
          obtain ⟨other, member, rest⟩ := holds
          cases List.mem_append.mp member with
          | inl old => exact ⟨other, old, rest⟩
          | inr new =>
            rw [List.mem_singleton.mp new] at rest
            exact absurd rest.2.2.symm different
    · rw [slots, SparseArray.read_write]
      split
      · simp
      · exact entryFor.notNull index
    · rw [slots, SparseArray.length_write]
      have old := entryFor.bounded bound fun other member => below other (List.mem_append_left _ member)
      have new := below connection (by simp) isMain
      omega
  · have slots : mainSlots (entry.set connection.type (SparseArray.write
        ((entry.get? connection.type).getD []) connection.inputIndex (.full items))) = mainSlots entry := by
      rw [mainSlots, mainSlots, OrderedMap.get?_set_of_ne _ _ (Ne.symm isMain)]
    refine ⟨fun index => ?_, fun index => ?_, fun bound below => ?_⟩
    · rw [slots, entryFor.full]
      constructor
      · intro holds
        obtain ⟨other, member, rest⟩ := holds
        exact ⟨other, List.mem_append_left _ member, rest⟩
      · intro holds
        obtain ⟨other, member, rest⟩ := holds
        cases List.mem_append.mp member with
        | inl old => exact ⟨other, old, rest⟩
        | inr new =>
          rw [List.mem_singleton.mp new] at rest
          exact absurd rest.1 isMain
    · rw [slots]
      exact entryFor.notNull index
    · rw [slots]
      exact entryFor.bounded bound fun other member => below other (List.mem_append_left _ member)

/-- What the loop over some connections of an incomplete group did. -/
def GroupEntry (runData : IRunData Item) (nodeName : String) (runIndex : Nat) (state : ExecutionState Item)
    (connections : List GraphConnection) (next : ExecutionState Item) : Prop :=
  ((∀ connection ∈ connections, ¬Carries runData connection) ∧
      next.waitingExecution = state.waitingExecution) ∨
    (∃ connection ∈ connections, Carries runData connection) ∧ ∃ entry, EntryFor runData connections entry ∧
      ∀ name, next.waitingExecution.row name = if name = nodeName
        then (state.waitingExecution.row nodeName).set runIndex entry else state.waitingExecution.row name

theorem entryFor_of_none (none : ∀ connection ∈ connections, ¬Carries runData connection) :
    EntryFor runData connections (∅ : ITaskDataConnections Item) := by
  refine ⟨fun index => ⟨fun isFull => by simp [mainSlots] at isFull, fun holds => ?_⟩, by simp [mainSlots],
    by simp [mainSlots]⟩
  obtain ⟨connection, member, _, carries, _⟩ := holds
  exact absurd carries (none connection member)

theorem GroupEntry.snoc {nodeName : String} {runIndex : Nat}
    {state middle next : ExecutionState Item} {connections : List GraphConnection}
    {connection : GraphConnection}
    (isFree : (state.waitingExecution.row nodeName).get? runIndex = none)
    (before : GroupEntry runData nodeName runIndex state connections middle)
    (returns : addIncoming runData nodeName runIndex middle connection = .ok next) :
    GroupEntry runData nodeName runIndex state (connections ++ [connection]) next := by
  cases addIncoming_inv returns with
  | inl skipped =>
    obtain ⟨carriesNothing, same⟩ := skipped
    cases before with
    | inl nothing =>
      refine .inl ⟨fun other member => ?_, same.trans nothing.2⟩
      cases List.mem_append.mp member with
      | inl old => exact nothing.1 other old
      | inr new => exact List.mem_singleton.mp new ▸ carriesNothing
    | inr some =>
      obtain ⟨⟨other, member, carries⟩, entry, entryFor, rows⟩ := some
      exact .inr ⟨⟨other, List.mem_append_left _ member, carries⟩, entry, entryFor.skip carriesNothing,
        fun name => by rw [same]; exact rows name⟩
  | inr added =>
    obtain ⟨carries, items, same⟩ := added
    have inList : ∃ other ∈ connections ++ [connection], Carries runData other :=
      ⟨connection, by simp, carries⟩
    cases before with
    | inl nothing =>
      refine .inr ⟨inList, _, (entryFor_of_none nothing.1).add carries items, fun name => ?_⟩
      rw [same, nothing.2, addWaitingExecution, addToTable, OrderedMap.row_set, isFree]
      rfl
    | inr some =>
      obtain ⟨_, entry, entryFor, rows⟩ := some
      refine .inr ⟨inList, _, entryFor.add carries items, fun name => ?_⟩
      rw [same, addWaitingExecution, addToTable, OrderedMap.row_set, rows nodeName, if_pos rfl,
        OrderedMap.get?_set_self, OrderedMap.set_set]
      split
      · rfl
      · rename_i different
        rw [rows name, if_neg different]

structure LeavesEntry (runData : IRunData Item) (sourceData : SourceConnectionGroup) : Prop where
  incomplete : sourceData.complete = false
  carries : ∃ connection ∈ sourceData.connections, Carries runData connection

/-- The entries are those of the groups handled so far, and the indexes of a node are counted up. -/
structure Produced (runData : IRunData Item) (done : List (INode × SourceConnectionGroup))
    (state : ExecutionState Item) : Prop where
  counted : ∀ name key, key ∈ (state.waitingExecution.row name).keys →
    key < (state.waitingExecution.row name).size
  sound : ∀ name key entry, (state.waitingExecution.row name).get? key = some entry →
    ∃ pair ∈ done, pair.1.name = name ∧ LeavesEntry runData pair.2 ∧ EntryFor runData pair.2.connections entry
  all : ∀ pair ∈ done, LeavesEntry runData pair.2 →
    ∃ key entry, (state.waitingExecution.row pair.1.name).get? key = some entry ∧
      EntryFor runData pair.2.connections entry

variable {done : List (INode × SourceConnectionGroup)}

theorem Produced.mono
    {pair : INode × SourceConnectionGroup} (produced : Produced runData done state)
    (leavesNone : ¬LeavesEntry runData pair.2) (same : next.waitingExecution = state.waitingExecution) :
    Produced runData (done ++ [pair]) next := by
  refine ⟨same ▸ produced.counted, fun name key entry found => ?_, fun other member leaves => ?_⟩
  · obtain ⟨other, member, rest⟩ := produced.sound name key entry (same ▸ found)
    exact ⟨other, List.mem_append_left _ member, rest⟩
  · cases List.mem_append.mp member with
    | inl old => exact same ▸ produced.all other old leaves
    | inr new => exact absurd (List.mem_singleton.mp new ▸ leaves) leavesNone

theorem size_set_of_free {map : OrderedMap Nat (ITaskDataConnections Item)} {key : Nat}
    (isFree : map.get? key = none) (entry : ITaskDataConnections Item) : (map.set key entry).size = map.size + 1 := by
  have absent := OrderedMap.get?_eq_none.mp isFree
  rw [← OrderedMap.length_keys, OrderedMap.keys_set, if_neg absent, List.length_append, OrderedMap.length_keys]
  rfl

variable {pinData : IPinData Item} {startNode : INode}

theorem Produced.addGroup
    {sourceData : SourceConnectionGroup} (produced : Produced runData done state)
    (returns : addGroup runData pinData startNode state sourceData = .ok next) :
    Produced runData (done ++ [(startNode, sourceData)]) next := by
  rw [N8n.Core.addGroup] at returns
  split at returns
  · rename_i complete
    obtain ⟨collected, _, returns⟩ := Loop.bind_inv returns
    cases returns
    exact produced.mono (fun leaves => Bool.noConfusion (complete.symm.trans leaves.incomplete)) rfl
  rename_i incomplete
  dsimp only at returns
  have isFree : (state.waitingExecution.row startNode.name).get?
      (state.waitingExecution.row startNode.name).size = none := by
    rw [OrderedMap.get?_eq_none]
    intro member
    exact absurd (produced.counted _ _ member) (Nat.lt_irrefl _)
  have group : GroupEntry runData startNode.name (state.waitingExecution.row startNode.name).size state
      sourceData.connections next := by
    have start : GroupEntry runData startNode.name (state.waitingExecution.row startNode.name).size state
        [] state := .inl ⟨by simp, rfl⟩
    simpa using Loop.foldlM_accumulates
      (GroupEntry runData startNode.name (state.waitingExecution.row startNode.name).size state)
      (fun connection => [connection]) (fun _ _ _ _ _ before turn => before.snoc isFree turn) start returns
  cases group with
  | inl nothing =>
    refine produced.mono (fun leaves => ?_) nothing.2
    obtain ⟨connection, member, carries⟩ := leaves.carries
    exact nothing.1 connection member carries
  | inr some =>
    obtain ⟨carries, entry, entryFor, rows⟩ := some
    have leaves : LeavesEntry runData sourceData := ⟨by simpa using incomplete, carries⟩
    refine ⟨fun name key member => ?_, fun name key other found => ?_, fun pair member otherLeaves => ?_⟩
    · rw [rows] at member ⊢
      split
      · rename_i same
        rw [if_pos same] at member
        rw [size_set_of_free isFree]
        cases OrderedMap.mem_keys_set.mp member with
        | inl isNew => omega
        | inr old => exact Nat.lt_succ_of_lt (produced.counted _ _ old)
      · rename_i different
        rw [if_neg different] at member
        exact produced.counted name key member
    · rw [rows] at found
      by_cases same : name = startNode.name
      · rw [if_pos same, OrderedMap.get?_set] at found
        split at found
        · cases found
          exact ⟨(startNode, sourceData), by simp, same.symm, leaves, entryFor⟩
        · obtain ⟨pair, member, isNode, rest⟩ := produced.sound _ _ _ found
          exact ⟨pair, List.mem_append_left _ member, isNode.trans same.symm, rest⟩
      · rw [if_neg same] at found
        obtain ⟨pair, member, rest⟩ := produced.sound _ _ _ found
        exact ⟨pair, List.mem_append_left _ member, rest⟩
    · cases List.mem_append.mp member with
      | inl old =>
        obtain ⟨key, otherEntry, found, rest⟩ := produced.all pair old otherLeaves
        refine ⟨key, otherEntry, ?_, rest⟩
        rw [rows]
        by_cases same : pair.1.name = startNode.name
        · have different : key ≠ (state.waitingExecution.row startNode.name).size := by
            intro equal
            rw [same, equal, isFree] at found
            cases found
          rw [if_pos same, OrderedMap.get?_set_of_ne _ _ different, ← same]
          exact found
        · rw [if_neg same]
          exact found
      | inr new =>
        rw [List.mem_singleton.mp new]
        exact ⟨_, entry, by rw [rows, if_pos rfl, OrderedMap.get?_set_self], entryFor⟩

/-- The start node has a main input, so its incoming data comes in groups. -/
def HasMainInput (graph : DirectedGraph) (startNode : INode) : Prop :=
  ∃ connection ∈ graph.connections.values, connection.to = startNode ∧ connection.type = .main

instance (graph : DirectedGraph) (startNode : INode) : Decidable (HasMainInput graph startNode) :=
  inferInstanceAs (Decidable (∃ connection ∈ graph.connections.values,
    connection.to = startNode ∧ connection.type = .main))

def groupsOf (localeCompare : String → String → Ordering) (graph : DirectedGraph) (runData : IRunData Item)
    (pinData : IPinData Item) (startNode : INode) : List (INode × SourceConnectionGroup) :=
  if HasMainInput graph startNode then
    (getSourceDataGroups localeCompare graph startNode runData pinData).map (startNode, ·)
  else []

theorem isEmpty_mainParents_iff :
    ((graph.connections.values.filter fun connection => connection.to = startNode).filter
      (·.type = .main)).isEmpty = true ↔ ¬ HasMainInput graph startNode := by
  rw [List.isEmpty_iff, List.filter_filter, List.filter_eq_nil_iff, HasMainInput]
  simp only [Bool.and_eq_true, decide_eq_true_eq, not_exists, not_and]
  exact ⟨fun nothing connection member isTo isMain => nothing connection member isMain isTo,
    fun nothing connection member isMain isTo => nothing connection member isTo isMain⟩

variable {localeCompare : String → String → Ordering}

theorem Produced.addStartNode [Inhabited Item] (produced : Produced runData done state)
    (returns : addStartNode localeCompare graph runData pinData state startNode = .ok next) :
    Produced runData (done ++ groupsOf localeCompare graph runData pinData startNode) next := by
  obtain ⟨parentConnections, parents, returns⟩ := Loop.bind_inv returns
  rw [DirectedGraph.getDirectParentConnections] at parents
  split at parents
  · cases parents
    split at returns
    · rename_i noParents
      cases returns
      rw [groupsOf, if_neg (isEmpty_mainParents_iff.mp noParents), List.append_nil]
      exact ⟨produced.counted, produced.sound, produced.all⟩
    · rename_i someParents
      rw [groupsOf, if_pos (not_not.mp fun noInput => someParents (isEmpty_mainParents_iff.mpr noInput))]
      rw [List.map_eq_flatMap]
      exact Loop.foldlM_accumulates (Produced runData) (fun sourceData => [(startNode, sourceData)])
        (fun _ _ _ _ _ before turn => before.addGroup turn) produced returns
  · cases parents

variable {startNodes : List INode} {state : ExecutionState Item}

theorem recreateNodeExecutionStack_produced [Inhabited Item]
    (returns : recreateNodeExecutionStack localeCompare graph startNodes runData pinData = .ok state) :
    Produced runData (startNodes.flatMap (groupsOf localeCompare graph runData pinData)) state := by
  rw [recreateNodeExecutionStack] at returns
  split at returns
  · cases returns
  · have start : Produced runData [] (⟨[], ∅, ∅⟩ : ExecutionState Item) :=
      ⟨by simp, by simp, by simp⟩
    simpa using Loop.foldlM_accumulates (Produced runData) (groupsOf localeCompare graph runData pinData)
      (fun _ _ _ _ _ before turn => before.addStartNode turn) start returns

/-! ## The shape the engine relies on -/

/-- One slot for each input, and `null` where there is no data. -/
def HasShape (numberOfInputs : Nat) (main : List (Slot (List Item))) : Prop :=
  main.length = numberOfInputs ∧ Slot.hole ∉ main

def ShapesAgree (workflow : Workflow) (state : ExecutionState Item) : Prop :=
  ∀ name key entry, (state.waitingExecution.row name).get? key = some entry →
    ∃ inputs main, workflow.mainInputs name = .ok inputs ∧ entry.get? .main = some main ∧
      HasShape inputs.length main

theorem hasShape_replicate (numberOfInputs : Nat) :
    HasShape numberOfInputs (List.replicate numberOfInputs (Slot.null : Slot (List Item))) :=
  ⟨List.length_replicate, fun member => by cases List.eq_of_mem_replicate member⟩

variable {main : List (Slot (List Item))}

theorem HasShape.write {numberOfInputs index : Nat} (hasShape : HasShape numberOfInputs main)
    (atInput : index < numberOfInputs) (items : List Item) :
    HasShape numberOfInputs (SparseArray.write main index (.full items)) := by
  refine ⟨by rw [SparseArray.length_write, hasShape.1]; omega, fun member => ?_⟩
  obtain ⟨other, within, isHole⟩ := SparseArray.mem_iff_read.mp member
  rw [SparseArray.read_write] at isHole
  split at isHole
  · cases isHole
  · rename_i different
    rw [SparseArray.length_write] at within
    have inMain : other < main.length := by
      have := hasShape.1
      omega
    exact hasShape.2 (SparseArray.mem_iff_read.mpr ⟨other, inMain, isHole⟩)

theorem HasShape.null_not_mem_iff {numberOfInputs : Nat} (hasShape : HasShape numberOfInputs main) :
    Slot.null ∉ main ↔ ∀ index < numberOfInputs, (SparseArray.read main index).isFull = true := by
  rw [← hasShape.1]
  constructor
  · intro noNull index within
    have member := SparseArray.read_mem within
    cases slot : SparseArray.read main index with
    | hole => exact absurd (slot ▸ member) hasShape.2
    | null => exact absurd (slot ▸ member) noNull
    | full items => rfl
  · intro allFull member
    obtain ⟨index, within, isNull⟩ := SparseArray.mem_iff_read.mp member
    have isFull := allFull index within
    rw [isNull] at isFull
    cases isFull

/-- `main` are the inputs of the entry that takes the data, before it does. -/
def Takes (state : ExecutionState Item) (numberOfInputs : Nat) (delivery : Delivery Item)
    (main : List (Slot (List Item))) : Prop :=
  (∃ key, NextOpen (state.waitingExecution.row delivery.connectionData.node) delivery.connectionData.index
    key main) ∨
  AllTaken (state.waitingExecution.row delivery.connectionData.node) delivery.connectionData.index ∧
    main = List.replicate numberOfInputs .null

theorem Chosen.takes {numberOfInputs key : Nat} {delivery : Delivery Item} {sourceMain : List (Slot ISourceData)}
    (chosen : Chosen state numberOfInputs delivery key main sourceMain) :
    Takes state numberOfInputs delivery main := by
  cases chosen with
  | waiting nextOpen sourceFound sourceMainFound => exact .inl ⟨key, nextOpen⟩
  | new allTaken => exact .inr ⟨allTaken, rfl⟩

theorem NextOpen.not_allTaken {nodeWaiting : OrderedMap Nat (ITaskDataConnections Item)} {index key : Nat}
    (nextOpen : NextOpen nodeWaiting index key main) :
    ¬AllTaken nodeWaiting index := by
  intro allTaken
  obtain ⟨entry, found, isMain⟩ := nextOpen.found
  obtain ⟨main', isMain', isFull⟩ := allTaken key entry found
  rw [isMain] at isMain'
  cases isMain'
  exact absurd isFull (by simp [nextOpen.isOpen])

theorem NextOpen.le {nodeWaiting : OrderedMap Nat (ITaskDataConnections Item)} {index first second : Nat}
    {main main' : List (Slot (List Item))} (left : NextOpen nodeWaiting index first main)
    (right : NextOpen nodeWaiting index second main') : second ≤ first := by
  by_contra less
  obtain ⟨entry, found, isMain⟩ := left.found
  obtain ⟨taken, isTaken, isFull⟩ := right.before first entry found (by omega)
  rw [isMain] at isTaken
  cases isTaken
  exact absurd isFull (by simp [left.isOpen])

theorem Takes.unique {numberOfInputs : Nat} {delivery : Delivery Item} {main main' : List (Slot (List Item))}
    (first : Takes state numberOfInputs delivery main) (second : Takes state numberOfInputs delivery main') :
    main = main' := by
  cases first with
  | inl waiting =>
    obtain ⟨key, nextOpen⟩ := waiting
    cases second with
    | inl waiting' =>
      obtain ⟨key', nextOpen'⟩ := waiting'
      obtain rfl : key = key' := Nat.le_antisymm (nextOpen'.le nextOpen) (nextOpen.le nextOpen')
      obtain ⟨entry, found, isMain⟩ := nextOpen.found
      obtain ⟨entry', found', isMain'⟩ := nextOpen'.found
      rw [found] at found'
      cases found'
      exact Option.some.inj (isMain.symm.trans isMain')
    | inr new => exact absurd new.1 nextOpen.not_allTaken
  | inr new =>
    cases second with
    | inl waiting' =>
      obtain ⟨key', nextOpen'⟩ := waiting'
      exact absurd new.1 nextOpen'.not_allTaken
    | inr new' => rw [new.2, new'.2]

variable {workflow : Workflow}

theorem ShapesAgree.takes {delivery : Delivery Item} {inputs : NodeInputConnections}
    (agree : ShapesAgree workflow state) (isInputs : workflow.mainInputs delivery.connectionData.node = .ok inputs)
    (takes : Takes state inputs.length delivery main) : HasShape inputs.length main := by
  cases takes with
  | inl waiting =>
    obtain ⟨key, nextOpen⟩ := waiting
    obtain ⟨entry, found, isMain⟩ := nextOpen.found
    obtain ⟨inputs', main', isInputs', isMain', hasShape⟩ := agree _ _ _ found
    rw [isInputs] at isInputs'
    rw [isMain] at isMain'
    cases isInputs'
    cases isMain'
    exact hasShape
  | inr new => exact new.2 ▸ hasShape_replicate _

structure DeliversData (workflow : Workflow) (delivery : Delivery Item) (inputs : NodeInputConnections)
    (items : List Item) : Prop where
  isInputs : workflow.mainInputs delivery.connectionData.node = .ok inputs
  several : 1 < inputs.length
  atInput : delivery.connectionData.index < inputs.length
  hasData : delivery.data = .full items

/-- The states such calls lead to, while the stack changes in any way between them. -/
inductive Later (workflow : Workflow) [Inhabited Item] (start : ExecutionState Item) :
    ExecutionState Item → Prop
  | start : Later workflow start start
  | deliver {state next : ExecutionState Item} {runData : IRunData Item} {delivery : Delivery Item}
      {inputs : NodeInputConnections} {items : List Item} (later : Later workflow start state)
      (delivers : DeliversData workflow delivery inputs items)
      (returns : addNodeToBeExecuted workflow runData state delivery = .ok next) : Later workflow start next
  | restack {state : ExecutionState Item} (later : Later workflow start state)
      (nodeExecutionStack : List (IExecuteData Item)) :
      Later workflow start { state with nodeExecutionStack }

theorem ShapesAgree.later [Inhabited Item] {start state : ExecutionState Item} (agree : ShapesAgree workflow start)
    (later : Later workflow start state) :
    ShapesAgree workflow state := by
  induction later with
  | start => exact agree
  | deliver later delivers returns agreeBefore =>
    obtain ⟨key, main, sourceMain, chosen, outcome⟩ :=
      addNodeToBeExecuted_cases delivers.isInputs delivers.several returns
    have hasShape := agreeBefore.takes delivers.isInputs chosen.takes
    intro name other entry found
    cases outcome with
    | moved noneMissing node data isSource source stack changes =>
      rw [changes.waiting] at found
      split at found
      · rename_i same
        rw [OrderedMap.get?_eq_some] at found
        exact agreeBefore name other entry (same ▸ OrderedMap.get?_eq_some.mpr (OrderedMap.mem_erase.mp found).2)
      · exact agreeBefore name other entry found
    | kept missing source sourceFound stack changes =>
      rw [changes.waiting] at found
      split at found
      · rename_i same
        rw [OrderedMap.get?_set] at found
        split at found
        · cases found
          refine ⟨_, _, same ▸ delivers.isInputs, get?_onlyMain _, ?_⟩
          rw [delivers.hasData]
          exact hasShape.write delivers.atInput _
        · exact agreeBefore name other entry (same ▸ found)
      · exact agreeBefore name other entry found
  | restack later nodeExecutionStack agreeBefore => exact agreeBefore

def Enqueues (workflow : Workflow) (state next : ExecutionState Item) (delivery : Delivery Item)
    (main : List (Slot (List Item))) : Prop :=
  ∃ item, item.node = workflow.getNode delivery.connectionData.node ∧
    item.data.get? .main = some (SparseArray.write main delivery.connectionData.index delivery.data) ∧
      next.nodeExecutionStack.Perm (item :: state.nodeExecutionStack)

def EnqueuesWhenComplete (workflow : Workflow) [Inhabited Item] (state : ExecutionState Item) : Prop :=
  ∀ runData delivery inputs items main next, DeliversData workflow delivery inputs items →
    Takes state inputs.length delivery main → addNodeToBeExecuted workflow runData state delivery = .ok next →
      (Enqueues workflow state next delivery main ↔ ∀ index < inputs.length,
        (SparseArray.read (SparseArray.write main delivery.connectionData.index delivery.data) index).isFull = true)

theorem ShapesAgree.enqueuesWhenComplete [Inhabited Item] (agree : ShapesAgree workflow state) :
    EnqueuesWhenComplete workflow state := by
  intro runData delivery inputs items main next delivers takes returns
  obtain ⟨key, main', sourceMain, chosen, outcome⟩ :=
    addNodeToBeExecuted_cases delivers.isInputs delivers.several returns
  obtain rfl : main = main' := takes.unique chosen.takes
  have written : HasShape inputs.length
      (SparseArray.write main delivery.connectionData.index delivery.data) := by
    rw [delivers.hasData]
    exact (agree.takes delivers.isInputs takes).write delivers.atInput _
  rw [← written.null_not_mem_iff]
  cases outcome with
  | moved noneMissing node data isSource source stack changes =>
    exact ⟨fun _ => noneMissing, fun _ => ⟨_, node, data, stack⟩⟩
  | kept missing source sourceFound stack changes =>
    refine ⟨fun enqueues => ?_, fun noneMissing => absurd missing noneMissing⟩
    -- what the call added has one input only
    obtain ⟨item, _, data, isAdded⟩ := enqueues
    obtain ⟨added, perm, single⟩ := stack
    have same := (List.perm_append_right_iff state.nodeExecutionStack).mp
      (perm.symm.trans (List.singleton_append ▸ isAdded : next.nodeExecutionStack.Perm ([item] ++ _)))
    obtain ⟨slot, isSingle⟩ := single item (same.mem_iff.mpr (List.mem_singleton.mpr rfl))
    rw [data, Option.some.injEq] at isSingle
    have tooShort := congrArg List.length isSingle
    rw [written.1, List.length_singleton] at tooShort
    have := delivers.several
    omega

/-! ## When planner and engine agree -/

/-- The produced entries have the engine's shape, and the engine goes on from them as it should. -/
structure PlannerAgrees (workflow : Workflow) [Inhabited Item] (state : ExecutionState Item) : Prop where
  shapes : ShapesAgree workflow state
  enqueues : ∀ later, Later workflow state later → EnqueuesWhenComplete workflow later

/-- Wherever an incomplete group of a start node carries items, its main connections carry items to
every main input of the node. -/
def GroupsCoverInputs (localeCompare : String → String → Ordering) (graph : DirectedGraph)
    (workflow : Workflow) (startNodes : List INode) (runData : IRunData Item) (pinData : IPinData Item) : Prop :=
  ∀ startNode ∈ startNodes, HasMainInput graph startNode →
    ∀ sourceData ∈ getSourceDataGroups localeCompare graph startNode runData pinData,
      LeavesEntry runData sourceData → ∀ inputs, workflow.mainInputs startNode.name = .ok inputs →
        ∀ index < inputs.length, ∃ connection ∈ sourceData.connections,
          connection.type = .main ∧ Carries runData connection ∧ connection.inputIndex = index

theorem mem_flatMap_groupsOf {pair : INode × SourceConnectionGroup} :
    pair ∈ startNodes.flatMap (groupsOf localeCompare graph runData pinData) ↔
      pair.1 ∈ startNodes ∧ HasMainInput graph pair.1 ∧
        pair.2 ∈ getSourceDataGroups localeCompare graph pair.1 runData pinData := by
  simp only [List.mem_flatMap, groupsOf]
  constructor
  · intro inside
    obtain ⟨startNode, member, inGroups⟩ := inside
    split at inGroups
    · rename_i hasInput
      obtain ⟨sourceData, inData, rfl⟩ := List.mem_map.mp inGroups
      exact ⟨member, hasInput, inData⟩
    · cases inGroups
  · intro holds
    obtain ⟨member, hasInput, inData⟩ := holds
    exact ⟨pair.1, member, by rw [if_pos hasInput]; exact List.mem_map.mpr ⟨pair.2, inData, rfl⟩⟩

theorem inputIndex_lt {settings : IWorkflowSettings}
    {sourceData : SourceConnectionGroup} {inputs : NodeInputConnections}
    (exports : graph.toWorkflow settings = .ok workflow)
    (inGroups : sourceData ∈ getSourceDataGroups localeCompare graph startNode runData pinData)
    (member : connection ∈ sourceData.connections) (isMain : connection.type = .main)
    (isInputs : workflow.mainInputs startNode.name = .ok inputs) : connection.inputIndex < inputs.length := by
  have inFlat := List.mem_flatMap.mpr ⟨sourceData, inGroups, member⟩
  have inGraph := (getSourceDataGroups_perm localeCompare graph startNode runData pinData).mem_iff.mp inFlat
  rw [DirectedGraph.getConnections, List.mem_filter] at inGraph
  have isTo : connection.to = startNode := by simpa using inGraph.2
  have hasInput := DirectedGraph.toWorkflow_hasInput exports inGraph.1
  rw [isMain, isTo] at hasInput
  obtain ⟨inputs', isInputs', within⟩ := Workflow.mainInputs_of_hasInput hasInput
  rw [isInputs] at isInputs'
  cases isInputs'
  exact within

theorem shapesAgree_iff [Inhabited Item] {settings : IWorkflowSettings}
    (exports : graph.toWorkflow settings = .ok workflow)
    (returns : recreateNodeExecutionStack localeCompare graph startNodes runData pinData = .ok state) :
    ShapesAgree workflow state ↔
      GroupsCoverInputs localeCompare graph workflow startNodes runData pinData := by
  have produced := recreateNodeExecutionStack_produced returns
  constructor
  · intro agree startNode member hasInput sourceData inGroups leaves inputs isInputs index within
    obtain ⟨key, entry, found, entryFor⟩ := produced.all (startNode, sourceData)
      (mem_flatMap_groupsOf.mpr ⟨member, hasInput, inGroups⟩) leaves
    obtain ⟨inputs', main, isInputs', isMain, hasShape⟩ := agree _ _ _ found
    rw [isInputs] at isInputs'
    cases isInputs'
    have slots : mainSlots entry = main := by rw [mainSlots, isMain]; rfl
    rw [← entryFor.full, slots]
    have inMain := SparseArray.read_mem (hasShape.1.symm ▸ within)
    cases slot : SparseArray.read main index with
    | hole => exact absurd (slot ▸ inMain) hasShape.2
    | null => exact absurd (slots.symm ▸ slot) (entryFor.notNull index)
    | full items => rfl
  · intro covers name key entry found
    obtain ⟨pair, member, rfl, leaves, entryFor⟩ := produced.sound name key entry found
    obtain ⟨isStart, hasInput, inGroups⟩ := mem_flatMap_groupsOf.mp member
    obtain ⟨connection, inGraph, isTo, isMainConnection⟩ := hasInput
    have exported := DirectedGraph.toWorkflow_hasInput exports inGraph
    rw [isMainConnection, isTo] at exported
    obtain ⟨inputs, isInputs, within⟩ := Workflow.mainInputs_of_hasInput exported
    have allFull : ∀ index < inputs.length, (SparseArray.read (mainSlots entry) index).isFull = true :=
      fun index inside => (entryFor.full index).mpr
        (covers pair.1 isStart ⟨connection, inGraph, isTo, isMainConnection⟩ pair.2 inGroups leaves inputs
          isInputs index inside)
    have longEnough : inputs.length ≤ (mainSlots entry).length := by
      have isFull := allFull (inputs.length - 1) (by omega)
      have := SparseArray.lt_length_of_read_ne_hole fun isHole => by
        rw [isHole] at isFull
        cases isFull
      omega
    have notLonger := entryFor.bounded inputs.length fun other inGroup isMain =>
      inputIndex_lt exports inGroups inGroup isMain isInputs
    cases isMain : entry.get? .main with
    | none =>
      rw [mainSlots, isMain] at longEnough
      simp only [Option.getD_none, List.length_nil] at longEnough
      omega
    | some main =>
      have slots : mainSlots entry = main := by rw [mainSlots, isMain]; rfl
      rw [slots] at allFull longEnough notLonger
      refine ⟨inputs, main, isInputs, rfl, by omega, fun isHole => ?_⟩
      obtain ⟨index, inside, slot⟩ := SparseArray.mem_iff_read.mp isHole
      have isFull := allFull index (by omega)
      rw [slot] at isFull
      cases isFull

theorem plannerAgrees_iff {localeCompare : String → String → Ordering} [Inhabited Item] {graph : DirectedGraph}
    {settings : IWorkflowSettings} {workflow : Workflow} {startNodes : List INode} {runData : IRunData Item}
    {pinData : IPinData Item} {state : ExecutionState Item}
    (exports : graph.toWorkflow settings = .ok workflow)
    (returns : recreateNodeExecutionStack localeCompare graph startNodes runData pinData = .ok state) :
    PlannerAgrees workflow state ↔
      GroupsCoverInputs localeCompare graph workflow startNodes runData pinData := by
  rw [← shapesAgree_iff exports returns]
  constructor
  · intro agrees
    exact agrees.shapes
  · intro agree
    exact ⟨agree, fun later isLater => (agree.later isLater).enqueuesWhenComplete⟩

end

/-- `localeCompare` on names of plain lower case letters. -/
def comparePlain (first second : String) : Ordering := compare first second

/-- One run with these items on the first output. -/
def ranWith (items : List Nat) : List (ITaskData Nat) := [⟨some (onlyMain [.full items])⟩]

namespace ModelWithoutData

/-- The agent has one main input; its model has a later input index and no data. -/
def trigger : INode := { id := "0", name := "trigger", type := "trigger" }
def model : INode := { id := "1", name := "model", type := "model" }
def agent : INode := { id := "2", name := "agent", type := "agent" }

def graph : DirectedGraph where
  nodes := [trigger, model, agent].foldl (fun nodes node => nodes.set node.name node) ∅
  connections := [⟨trigger, agent, .main, 0, 0⟩, ⟨model, agent, .aiLanguageModel, 0, 1⟩].foldl
    (fun connections connection => connections.set (makeKey connection) connection) ∅

def runData : IRunData Nat := (∅ : IRunData Nat).set "trigger" (ranWith [10])

theorem plannerAgrees : ∃ workflow state, graph.toWorkflow {} = .ok workflow ∧
    recreateNodeExecutionStack comparePlain graph [agent] runData ∅ = .ok state ∧
      (state.waitingExecution.row "agent").size = 1 ∧ PlannerAgrees workflow state := by
  have runs : ∃ workflow state, graph.toWorkflow {} = .ok workflow ∧
      recreateNodeExecutionStack comparePlain graph [agent] runData ∅ = .ok state ∧
        (state.waitingExecution.row "agent").size = 1 ∧
          workflow.mainInputs "agent" = .ok [.full [⟨"trigger", .main, 0⟩]] :=
    ⟨_, _, rfl, rfl, rfl, rfl⟩
  obtain ⟨workflow, state, exports, returns, waits, isInputs⟩ := runs
  refine ⟨workflow, state, exports, returns, waits, (plannerAgrees_iff exports returns).mpr ?_⟩
  intro startNode member _ sourceData inGroups leaves inputs isInputs' index within
  rw [List.mem_singleton.mp member] at inGroups isInputs'
  obtain rfl : [.full [⟨"trigger", .main, 0⟩]] = inputs := Except.ok.inj (isInputs.symm.trans isInputs')
  have groups : getSourceDataGroups comparePlain graph agent runData ∅ =
      [⟨false, [⟨trigger, agent, .main, 0, 0⟩, ⟨model, agent, .aiLanguageModel, 0, 1⟩]⟩] := by decide
  rw [groups, List.mem_singleton] at inGroups
  obtain rfl : index = 0 := by simpa using within
  exact ⟨⟨trigger, agent, .main, 0, 0⟩, by simp [inGroups], rfl, ⟨⟨[10], 0⟩, rfl⟩, rfl⟩

end ModelWithoutData

namespace OneOfThree

/-- Only the first of three inputs has data. -/
def first : INode := { id := "1", name := "first", type := "set" }
def second : INode := { id := "2", name := "second", type := "set" }
def third : INode := { id := "3", name := "third", type := "set" }
def merge : INode := { id := "4", name := "merge", type := "merge" }

def graph : DirectedGraph where
  nodes := [first, second, third, merge].foldl (fun nodes node => nodes.set node.name node) ∅
  connections := [⟨first, merge, .main, 0, 0⟩, ⟨second, merge, .main, 0, 1⟩, ⟨third, merge, .main, 0, 2⟩].foldl
    (fun connections connection => connections.set (makeKey connection) connection) ∅

def runData : IRunData Nat := (∅ : IRunData Nat).set "first" (ranWith [10])

/-- What the second node hands on. -/
def delivery : Delivery Nat where
  connectionData := ⟨"merge", .main, 1⟩
  outputIndex := 0
  parentNodeName := "second"
  nodeSuccessData := some [.full [20]]
  runIndex := 0

/-- The engine enqueues the node after the second delivery, without data for the third input. -/
theorem not_plannerAgrees : ∃ workflow state, graph.toWorkflow { executionOrder := some "v1" } = .ok workflow ∧
    recreateNodeExecutionStack comparePlain graph [merge] runData ∅ = .ok state ∧
      ¬PlannerAgrees workflow state := by
  have runs : ∃ workflow state inputs next, graph.toWorkflow { executionOrder := some "v1" } = .ok workflow ∧
      recreateNodeExecutionStack comparePlain graph [merge] runData ∅ = .ok state ∧
      DeliversData workflow delivery inputs [20] ∧ inputs.length = 3 ∧
      NextOpen (state.waitingExecution.row "merge") 1 0 [.full [10]] ∧
      addNodeToBeExecuted workflow runData state delivery = .ok next ∧
      Enqueues workflow state next delivery [.full [10]] :=
    ⟨_, _, _, _, rfl, rfl, ⟨rfl, by decide, by decide, rfl⟩, rfl,
      ⟨⟨_, rfl, rfl⟩, rfl, fun _ _ _ isEarlier => absurd isEarlier (Nat.not_lt_zero _)⟩, rfl,
      ⟨_, rfl, rfl, List.Perm.refl _⟩⟩
  obtain ⟨workflow, state, inputs, next, exports, returns, delivers, three, nextOpen, called, enqueued⟩ := runs
  refine ⟨workflow, state, exports, returns, fun agrees => ?_⟩
  have allFull := (agrees.enqueues state .start runData delivery inputs [20] _ next delivers
    (.inl ⟨0, nextOpen⟩) called).mp enqueued
  have thirdFull := allFull 2 (by omega)
  cases thirdFull

end OneOfThree

end N8n.Core
