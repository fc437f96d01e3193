import N8n.Core.RecreatedState
import N8n.Core.SourceGroups

/-! # Incoming data on the inputs of the start nodes

A stack item is filled in the order of its group, a waiting entry by input
index, and the sources by a rule of their own.  `recreateNodeExecutionStack_places_iff`
says when the three agree.
-/

namespace N8n.Core

variable {Item : Type}

/-! ## Groups -/

section

variable {localeCompare : String → String → Ordering} {graph : DirectedGraph} {startNode : INode}
  {runData : IRunData Item} {pinData : IPinData Item} {sourceData : SourceConnectionGroup}

theorem mem_of_mem_group
    (inGroups : sourceData ∈ getSourceDataGroups localeCompare graph startNode runData pinData)
    {connection : GraphConnection} (member : connection ∈ sourceData.connections) :
    connection ∈ graph.connections.values ∧ connection.to = startNode := by
  have inside := (getSourceDataGroups_perm localeCompare graph startNode runData pinData).subset
    (List.mem_flatMap.mpr ⟨sourceData, inGroups, member⟩)
  obtain ⟨inGraph, isTo⟩ := List.mem_filter.mp inside
  exact ⟨inGraph, of_decide_eq_true isTo⟩

theorem nodup_inputIndex
    (inGroups : sourceData ∈ getSourceDataGroups localeCompare graph startNode runData pinData) :
    (sourceData.connections.map (·.inputIndex)).Nodup := by
  have partitions := partitions_getSourceDataGroups localeCompare graph startNode runData pinData
  have consecutive := (partitions.isGroup _ (List.mem_map_of_mem inGroups)).consecutive
  have increasing : (sourceData.connections.map fun connection => (connection.inputIndex : Int)).Pairwise (· < ·) :=
    List.isChain_iff_pairwise.mp (consecutive.imp fun index next isNext => by omega)
  have distinct : ((sourceData.connections.map (·.inputIndex)).map (Nat.cast : Nat → Int)).Nodup := by
    rw [List.map_map]
    exact increasing.imp fun less => Int.ne_of_lt less
  exact distinct.of_map

theorem exists_group (wellFormed : graph.WellFormed) {connection : GraphConnection}
    (inGraph : connection ∈ graph.connections.values) (isTo : connection.to = startNode) :
    ∃ before sourceData after, getSourceDataGroups localeCompare graph startNode runData pinData =
        before ++ sourceData :: after ∧ connection ∈ sourceData.connections ∧
      ∀ other ∈ before ++ after, connection ∉ other.connections := by
  have perm := getSourceDataGroups_perm localeCompare graph startNode runData pinData
  have nodup : ((getSourceDataGroups localeCompare graph startNode runData pinData).flatMap (·.connections)).Nodup :=
    perm.nodup_iff.mpr ((OrderedMap.nodup_values_of_keyed wellFormed.connectionKeys).filter _)
  have inside := perm.mem_iff.mpr (List.mem_filter.mpr ⟨inGraph, decide_eq_true isTo⟩)
  obtain ⟨sourceData, inGroups, member⟩ := List.mem_flatMap.mp inside
  obtain ⟨before, after, split⟩ := List.append_of_mem inGroups
  refine ⟨before, sourceData, after, split, member, fun other among inOther => ?_⟩
  rw [split, List.flatMap_append, List.flatMap_cons] at nodup
  obtain ⟨_, nodupRest, apart⟩ := List.nodup_append'.mp nodup
  obtain ⟨_, _, apartRest⟩ := List.nodup_append'.mp nodupRest
  cases List.mem_append.mp among with
  | inl inBefore =>
    exact apart (List.mem_flatMap.mpr ⟨other, inBefore, inOther⟩) (List.mem_append_left _ member)
  | inr inAfter => exact apartRest member (List.mem_flatMap.mpr ⟨other, inAfter, inOther⟩)

end

/-! ## Data on the right input -/

/-- The items are what the source of the connection is pinned to, or what its run `runIndex` left on the output. -/
def TakenFrom (runData : IRunData Item) (pinData : IPinData Item) (connection : GraphConnection)
    (items : List Item) (runIndex : Nat) : Prop :=
  pinData.get? connection.from.name = some items ∧ runIndex = 0 ∨
    items ≠ [] ∧ ∃ run ∈ (runsOf runData connection.from.name)[runIndex]?,
      itemsOn connection.type connection.outputIndex run = items

/-- There is no data and no source, or the data of an incoming Main connection for this input and the source it was
taken from. -/
def PlacedAt (graph : DirectedGraph) (runData : IRunData Item) (pinData : IPinData Item) (nodeName : String)
    (index : Nat) (slot : Slot (List Item)) (source : Slot ISourceData) : Prop :=
  slot.getD [] = [] ∧ source.isFull = false ∨
    ∃ connection ∈ graph.connections.values, connection.to.name = nodeName ∧ connection.type = .main ∧
      connection.inputIndex = index ∧ ∃ items runIndex, slot = .full items ∧
        source = sourceOf connection runIndex ∧ TakenFrom runData pinData connection items runIndex

def mainSources (sources : ITaskDataConnectionsSource) : List (Slot ISourceData) := (sources.get? .main).getD []

def Placed (graph : DirectedGraph) (runData : IRunData Item) (pinData : IPinData Item) (nodeName : String)
    (data : ITaskDataConnections Item) (sources : ITaskDataConnectionsSource) : Prop :=
  ∀ index, PlacedAt graph runData pinData nodeName index (SparseArray.read (mainSlots data) index)
    (SparseArray.read (mainSources sources) index)

/-- In every stack item and every waiting entry the data is on the right inputs.  A start node without incoming Main
connections has no inputs; its item holds one empty item and no source. -/
structure PlacesData (graph : DirectedGraph) (startNodes : List INode) (runData : IRunData Item)
    (pinData : IPinData Item) [Inhabited Item] (state : ExecutionState Item) : Prop where
  stack : ∀ item ∈ state.nodeExecutionStack, ∃ startNode ∈ startNodes, item.node = some startNode ∧
    (¬ HasMainInput graph startNode ∧ item.data = onlyMain [.full [default]] ∧ item.source = none ∨
      ∃ sources, item.source = some sources ∧ Placed graph runData pinData startNode.name item.data sources)
  waiting : ∀ name key entry, (state.waitingExecution.row name).get? key = some entry →
    ∃ sources, (state.waitingExecutionSource.row name).get? key = some sources ∧
      Placed graph runData pinData name entry sources

/-- Every connection of the group has data, and a Main connection from the same output leads to the input that is the
position of the connection in the group. -/
def FillsInOrder (graph : DirectedGraph) (runData : IRunData Item) (pinData : IPinData Item) (startNode : INode)
    (sourceData : SourceConnectionGroup) : Prop :=
  ∀ index connection, sourceData.connections[index]? = some connection →
    ∃ incoming, available runData pinData connection = some incoming ∧
      ∃ main ∈ graph.connections.values, main.to.name = startNode.name ∧ main.type = .main ∧
        main.inputIndex = index ∧ main.from.name = connection.from.name ∧
          main.outputIndex = connection.outputIndex ∧
            TakenFrom runData pinData main incoming.data incoming.runIndex

/-- Every Main connection of the group that has recorded data left it in the run numbered as the waiting entry. -/
def RunsAsEntry (runData : IRunData Item) (pinData : IPinData Item) (key : Nat) (sourceData : SourceConnectionGroup) :
    Prop :=
  ∀ connection ∈ sourceData.connections, connection.type = .main →
    ∀ incoming, recorded runData connection = some incoming → TakenFrom runData pinData connection incoming.data key

section

variable {graph : DirectedGraph} {runData : IRunData Item} {pinData : IPinData Item}

theorem TakenFrom.congr {first second : GraphConnection} {items : List Item} {runIndex : Nat}
    (taken : TakenFrom runData pinData first items runIndex) (sameName : first.from.name = second.from.name)
    (sameType : first.type = second.type) (sameOutput : first.outputIndex = second.outputIndex) :
    TakenFrom runData pinData second items runIndex := by
  rw [TakenFrom, ← sameName, ← sameType, ← sameOutput]
  exact taken

theorem sourceOf_inj {first second : GraphConnection} {firstRun secondRun : Nat}
    (same : sourceOf first firstRun = sourceOf second secondRun) :
    first.from.name = second.from.name ∧ first.outputIndex = second.outputIndex ∧ firstRun = secondRun := by
  simpa [sourceOf] using same

@[simp] theorem mainSlots_onlyMain (main : List (Slot (List Item))) : mainSlots (onlyMain main) = main := rfl

@[simp] theorem mainSources_onlyMain (main : List (Slot ISourceData)) : mainSources (onlyMain main) = main := rfl

theorem getElem?_filterMap_of_isSome {α β : Type} {select : α → Option β} {items : List α}
    (all : ∀ item ∈ items, (select item).isSome = true) (index : Nat) :
    (items.filterMap select)[index]? = items[index]?.bind select := by
  induction items generalizing index with
  | nil => simp
  | cons item rest ih =>
    obtain ⟨selected, isSelected⟩ := Option.isSome_iff_exists.mp (all item List.mem_cons_self)
    rw [List.filterMap_cons_some isSelected]
    cases index with
    | zero => simp [isSelected]
    | succ index =>
      simpa using ih (fun other member => all other (List.mem_cons_of_mem item member)) index

theorem stackItem_placed_iff {startNode : INode} {sourceData : SourceConnectionGroup}
    {sources : ITaskDataConnectionsSource}
    (isSource : (stackItem runData pinData startNode sourceData).source = some sources) :
    Placed graph runData pinData startNode.name (stackItem runData pinData startNode sourceData).data sources ↔
      FillsInOrder graph runData pinData startNode sourceData := by
  cases isSource
  rw [Placed, stackItem, mainSlots_onlyMain, mainSources_onlyMain]
  constructor
  · intro placed
    -- every position up to the last one has a source, so it has data, and none was dropped
    have isPlaced : ∀ index connection, sourceData.connections[index]? = some connection →
        ∃ main ∈ graph.connections.values, main.to.name = startNode.name ∧ main.type = .main ∧
          main.inputIndex = index ∧ ∃ items runIndex,
            SparseArray.read (sourceData.connections.filterMap fun connection =>
              (available runData pinData connection).map (.full ·.data)) index = .full items ∧
            sourceOf connection ((available runData pinData connection).elim 0 (·.runIndex)) =
              sourceOf main runIndex ∧ TakenFrom runData pinData main items runIndex := by
      intro index connection isAt
      have source : SparseArray.read (sourceData.connections.map fun connection =>
          sourceOf connection ((available runData pinData connection).elim 0 (·.runIndex))) index =
            sourceOf connection ((available runData pinData connection).elim 0 (·.runIndex)) := by
        simp [SparseArray.read, List.getD_eq_getElem?_getD, isAt]
      have here := placed index
      rw [source] at here
      exact here.resolve_left fun nothing => Bool.noConfusion nothing.2
    have all : ∀ connection ∈ sourceData.connections,
        ((available runData pinData connection).map fun incoming => Slot.full incoming.data).isSome = true := by
      rw [← List.filterMap_length_eq_length]
      refine Nat.le_antisymm (List.length_filterMap_le _ _) ?_
      by_contra shorter
      obtain ⟨index, bound⟩ : ∃ index, index + 1 = sourceData.connections.length :=
        ⟨sourceData.connections.length - 1, by omega⟩
      obtain ⟨main, _, _, _, _, items, runIndex, isData, _⟩ := isPlaced index _
        (List.getElem?_eq_getElem (show index < sourceData.connections.length by omega))
      rw [SparseArray.read, List.getD_eq_getElem?_getD, List.getElem?_eq_none (by omega)] at isData
      cases isData
    intro index connection isAt
    obtain ⟨main, member, isTo, isMain, atIndex, items, runIndex, isData, sameSource, taken⟩ :=
      isPlaced index connection isAt
    rw [SparseArray.read, List.getD_eq_getElem?_getD, getElem?_filterMap_of_isSome all, isAt] at isData
    obtain ⟨sameName, sameOutput, sameRun⟩ := sourceOf_inj sameSource
    cases isAvailable : available runData pinData connection with
    | none =>
      rw [Option.bind_some, isAvailable] at isData
      cases isData
    | some incoming =>
      rw [Option.bind_some, isAvailable] at isData
      rw [isAvailable, Option.elim_some] at sameRun
      cases isData
      exact ⟨incoming, rfl, main, member, isTo, isMain, atIndex, sameName.symm, sameOutput.symm, sameRun ▸ taken⟩
  · intro fills index
    cases isAt : sourceData.connections[index]? with
    | none =>
      have pastEnd := List.getElem?_eq_none_iff.mp isAt
      have shorter := List.length_filterMap_le (fun connection =>
        (available runData pinData connection).map fun incoming => Slot.full incoming.data) sourceData.connections
      refine .inl ⟨?_, ?_⟩
      · rw [SparseArray.read, List.getD_eq_getElem?_getD, List.getElem?_eq_none (by omega)]
        rfl
      · rw [SparseArray.read, List.getD_eq_getElem?_getD, List.getElem?_eq_none (by rw [List.length_map]; omega)]
        rfl
    | some connection =>
      have all : ∀ connection ∈ sourceData.connections,
          ((available runData pinData connection).map fun incoming => Slot.full incoming.data).isSome = true := by
        intro other member
        obtain ⟨position, isOther⟩ := List.getElem?_of_mem member
        obtain ⟨incoming, isAvailable, _⟩ := fills position other isOther
        rw [isAvailable]
        rfl
      obtain ⟨incoming, isAvailable, main, member, isTo, isMain, atIndex, sameName, sameOutput, taken⟩ :=
        fills index connection isAt
      refine .inr ⟨main, member, isTo, isMain, atIndex, incoming.data, incoming.runIndex, ?_, ?_, taken⟩
      · rw [SparseArray.read, List.getD_eq_getElem?_getD, getElem?_filterMap_of_isSome all, isAt, Option.bind_some,
          isAvailable]
        rfl
      · simp [SparseArray.read, List.getD_eq_getElem?_getD, isAt, isAvailable, sourceOf, sameName, sameOutput]

theorem entryOf_placed_iff {name : String} {key : Nat} {sourceData : SourceConnectionGroup}
    (distinct : (sourceData.connections.map (·.inputIndex)).Nodup)
    (into : ∀ connection ∈ sourceData.connections,
      connection ∈ graph.connections.values ∧ connection.to.name = name) :
    Placed graph runData pinData name (entryOf runData sourceData) (sourceEntryOf runData key sourceData) ↔
      RunsAsEntry runData pinData key sourceData := by
  have isFilled : ∀ connection ∈ sourceData.connections, connection.type = .main → ∀ incoming,
      recorded runData connection = some incoming →
        SparseArray.read (mainSlots (entryOf runData sourceData)) connection.inputIndex = .full incoming.data ∧
          SparseArray.read (mainSources (sourceEntryOf runData key sourceData)) connection.inputIndex =
            sourceOf connection key := by
    intro connection member isMain incoming isRecorded
    rw [mainSlots, mainSources, entryOf, sourceEntryOf, ← isMain]
    exact ⟨read_fillEntry distinct member _ (by rw [isRecorded]; rfl),
      read_fillEntry distinct member _ (by rw [isRecorded]; rfl)⟩
  constructor
  · intro placed connection member isMain incoming isRecorded
    obtain ⟨data, source⟩ := isFilled connection member isMain incoming isRecorded
    have here := placed connection.inputIndex
    rw [data, source] at here
    obtain ⟨main, _, _, mainIsMain, _, items, runIndex, sameData, sameSource, taken⟩ :=
      here.resolve_left fun nothing => Bool.noConfusion nothing.2
    obtain ⟨sameName, sameOutput, rfl⟩ := sourceOf_inj sameSource
    cases sameData
    exact taken.congr sameName.symm (mainIsMain.trans isMain.symm) sameOutput.symm
  · intro runs index
    by_cases filled : ∃ connection ∈ sourceData.connections, connection.type = .main ∧
        connection.inputIndex = index ∧ (recorded runData connection).isSome = true
    · obtain ⟨connection, member, isMain, rfl, isSome⟩ := filled
      obtain ⟨incoming, isRecorded⟩ := Option.isSome_iff_exists.mp isSome
      obtain ⟨data, source⟩ := isFilled connection member isMain incoming isRecorded
      exact .inr ⟨connection, (into connection member).1, (into connection member).2, isMain, rfl, incoming.data, key,
        data, source, runs connection member isMain incoming isRecorded⟩
    · have nothing : ∀ connection ∈ sourceData.connections, connection.type = .main →
          connection.inputIndex = index → recorded runData connection = none := by
        intro connection member isMain atIndex
        by_contra isRecorded
        exact filled ⟨connection, member, isMain, atIndex, Option.isSome_iff_ne_none.mpr isRecorded⟩
      refine .inl ⟨?_, ?_⟩
      · rw [mainSlots, entryOf, read_fillEntry_of_none fun connection member isMain atIndex => by
          rw [nothing connection member isMain atIndex]; rfl]
        rfl
      · rw [mainSources, sourceEntryOf, read_fillEntry_of_none fun connection member isMain atIndex => by
          rw [nothing connection member isMain atIndex]; rfl]
        rfl

end

variable {runData : IRunData Item} {pinData : IPinData Item} {startNode : INode}

theorem mem_groupsOf {localeCompare : String → String → Ordering} {graph : DirectedGraph}
    {pair : INode × SourceConnectionGroup} (member : pair ∈ groupsOf localeCompare graph runData pinData startNode) :
    HasMainInput graph startNode ∧ pair.1 = startNode ∧
      pair.2 ∈ getSourceDataGroups localeCompare graph startNode runData pinData := by
  rw [groupsOf] at member
  split at member
  · rename_i hasInput
    obtain ⟨sourceData, inGroups, rfl⟩ := List.mem_map.mp member
    exact ⟨hasInput, rfl, inGroups⟩
  · cases member

theorem groupsOf_of_hasMainInput {localeCompare : String → String → Ordering} {graph : DirectedGraph}
    (hasInput : HasMainInput graph startNode) :
    groupsOf localeCompare graph runData pinData startNode =
      (getSourceDataGroups localeCompare graph startNode runData pinData).map (startNode, ·) := if_pos hasInput

theorem mem_leaving {done : List (INode × SourceConnectionGroup)} {name : String} {sourceData : SourceConnectionGroup}
    (member : sourceData ∈ leaving runData done name) :
    ∃ pair ∈ done, pair.1.name = name ∧ pair.2 = sourceData := by
  obtain ⟨pair, inside, rfl⟩ := List.mem_map.mp member
  obtain ⟨inDone, leaves⟩ := List.mem_filter.mp inside
  rw [Bool.and_eq_true, decide_eq_true_eq] at leaves
  exact ⟨pair, inDone, leaves.1, rfl⟩

theorem takenFrom_of_available {connection : GraphConnection} {incoming : IncomingData Item}
    (isAvailable : available runData pinData connection = some incoming) :
    TakenFrom runData pinData connection incoming.data incoming.runIndex := by
  rw [available] at isAvailable
  split at isAvailable
  · rename_i pinned isPinned
    cases isAvailable
    exact .inl ⟨isPinned, rfl⟩
  · obtain ⟨nonempty, index, run, runIndex, isRun, data⟩ := firstItems_spec isAvailable
    rw [Nat.zero_add] at runIndex
    exact .inr ⟨nonempty, run, runIndex ▸ isRun, data.symm⟩

/-- A group of Main connections that starts at input 0 and all of whose outputs have data fills the inputs in order. -/
theorem FillsInOrder.of_main {graph : DirectedGraph} {sourceData : SourceConnectionGroup}
    (into : ∀ connection ∈ sourceData.connections, connection ∈ graph.connections.values ∧
      connection.to = startNode ∧ connection.type = .main ∧ (available runData pinData connection).isSome = true)
    (inOrder : sourceData.connections.map (·.inputIndex) = List.range sourceData.connections.length) :
    FillsInOrder graph runData pinData startNode sourceData := by
  intro index connection isAt
  obtain ⟨inGraph, isTo, isMain, isSome⟩ := into connection (List.mem_of_getElem? isAt)
  obtain ⟨incoming, isAvailable⟩ := Option.isSome_iff_exists.mp isSome
  have atIndex : connection.inputIndex = index := by
    have position : (sourceData.connections.map (·.inputIndex))[index]? = some connection.inputIndex := by simp [isAt]
    rw [inOrder, List.getElem?_range (List.getElem?_eq_some_iff.mp isAt).1] at position
    exact (Option.some.inj position).symm
  exact ⟨incoming, isAvailable, connection, inGraph, by rw [isTo], isMain, atIndex, rfl, rfl,
    takenFrom_of_available isAvailable⟩

/-- The data of every stack item and every waiting entry is on the right inputs if and only if the complete groups fill
the inputs in their order and the data of the others comes from the runs that the entries are numbered by. -/
theorem recreateNodeExecutionStack_places_iff (localeCompare : String → String → Ordering) [Inhabited Item]
    (graph : DirectedGraph) (startNodes : List INode) (runData : IRunData Item) (pinData : IPinData Item)
    (state : ExecutionState Item)
    (returns : recreateNodeExecutionStack localeCompare graph startNodes runData pinData = .ok state) :
    PlacesData graph startNodes runData pinData state ↔
      (∀ startNode ∈ startNodes, ∀ pair ∈ groupsOf localeCompare graph runData pinData startNode,
        pair.2.complete = true → FillsInOrder graph runData pinData startNode pair.2) ∧
      ∀ name key sourceData,
        (leaving runData (startNodes.flatMap (groupsOf localeCompare graph runData pinData)) name)[key]? =
          some sourceData → RunsAsEntry runData pinData key sourceData := by
  have recreated := recreated_of_returns returns
  have entries := fun name => get?_of_entries (recreated.waits.entries name)
  have sources := fun name => get?_of_entries (recreated.waits.sources name)
  have entryPlaced : ∀ name key sourceData,
      (leaving runData (startNodes.flatMap (groupsOf localeCompare graph runData pinData)) name)[key]? =
        some sourceData → (Placed graph runData pinData name (entryOf runData sourceData)
          (sourceEntryOf runData key sourceData) ↔ RunsAsEntry runData pinData key sourceData) := by
    intro name key sourceData isAt
    obtain ⟨pair, inside, named, rfl⟩ := mem_leaving (List.mem_of_getElem? isAt)
    obtain ⟨startNode, _, inNode⟩ := List.mem_flatMap.mp inside
    obtain ⟨_, rfl, inGroups⟩ := mem_groupsOf inNode
    refine entryOf_placed_iff (nodup_inputIndex inGroups) fun connection member => ?_
    obtain ⟨inGraph, isTo⟩ := mem_of_mem_group inGroups member
    exact ⟨inGraph, by rw [isTo]; exact named⟩
  constructor
  · intro places
    constructor
    · intro startNode member pair inGroups complete
      obtain ⟨hasInput, rfl, _⟩ := mem_groupsOf inGroups
      have onStack : stackItem runData pinData pair.1 pair.2 ∈ state.nodeExecutionStack := by
        rw [recreated.stack]
        refine List.mem_flatMap.mpr ⟨pair.1, member, ?_⟩
        rw [stackItems, if_pos hasInput]
        exact List.mem_map.mpr ⟨pair, List.mem_filter.mpr ⟨inGroups, complete⟩, rfl⟩
      obtain ⟨other, _, sameNode, placed⟩ := places.stack _ onStack
      obtain rfl : pair.1 = other := Option.some.inj sameNode
      cases placed with
      | inl noInput => exact absurd hasInput noInput.1
      | inr placed =>
        obtain ⟨sources, isSource, placed⟩ := placed
        exact (stackItem_placed_iff isSource).mp placed
    · intro name key sourceData isAt
      obtain ⟨sourceEntry, isSource, placed⟩ := places.waiting name key (entryOf runData sourceData)
        (by rw [entries, isAt]; rfl)
      rw [sources, isAt] at isSource
      cases isSource
      exact (entryPlaced name key sourceData isAt).mp placed
  · intro condition
    obtain ⟨fills, runs⟩ := condition
    constructor
    · intro item onStack
      rw [recreated.stack] at onStack
      obtain ⟨startNode, member, isItem⟩ := List.mem_flatMap.mp onStack
      rw [stackItems] at isItem
      split at isItem
      · obtain ⟨pair, inFilter, rfl⟩ := List.mem_map.mp isItem
        obtain ⟨inGroups, complete⟩ := List.mem_filter.mp inFilter
        obtain ⟨_, rfl, _⟩ := mem_groupsOf inGroups
        exact ⟨pair.1, member, rfl, .inr ⟨_, rfl,
          (stackItem_placed_iff rfl).mpr (fills pair.1 member pair inGroups complete)⟩⟩
      · rename_i noInput
        cases List.mem_singleton.mp isItem
        exact ⟨startNode, member, rfl, .inl ⟨noInput, rfl, rfl⟩⟩
    · intro name key entry found
      rw [entries, Option.map_eq_some_iff] at found
      obtain ⟨sourceData, isAt, rfl⟩ := found
      exact ⟨sourceEntryOf runData key sourceData, by rw [sources, isAt]; rfl,
        (entryPlaced name key sourceData isAt).mpr (runs name key sourceData isAt)⟩

namespace TwoOutputs

/-- The outputs of one node lead to the inputs of the next. -/
def branch : INode := { id := "0", name := "branch", type := "if" }
def merge : INode := { id := "1", name := "merge", type := "merge" }

def graph : DirectedGraph where
  nodes := [branch, merge].foldl (fun nodes node => nodes.set node.name node) ∅
  connections := [⟨branch, merge, .main, 0, 0⟩, ⟨branch, merge, .main, 1, 1⟩].foldl
    (fun connections connection => connections.set (makeKey connection) connection) ∅

def ran (first second : List Nat) : IRunData Nat :=
  (∅ : IRunData Nat).set "branch" [⟨some (onlyMain [.full first, .full second])⟩]

/-- Both outputs have items. -/
theorem places : ∃ state, recreateNodeExecutionStack comparePlain graph [merge] (ran [1] [2]) ∅ = .ok state ∧
    PlacesData graph [merge] (ran [1] [2]) ∅ state := by
  have returns : ∃ state, recreateNodeExecutionStack comparePlain graph [merge] (ran [1] [2]) ∅ = .ok state :=
    ⟨_, rfl⟩
  obtain ⟨state, returns⟩ := returns
  have groups : groupsOf comparePlain graph (ran [1] [2]) ∅ merge =
      [(merge, ⟨true, [⟨branch, merge, .main, 0, 0⟩, ⟨branch, merge, .main, 1, 1⟩]⟩)] := by decide
  refine ⟨state, returns, (recreateNodeExecutionStack_places_iff comparePlain graph [merge] (ran [1] [2]) ∅ state
    returns).mpr ⟨fun startNode member pair inGroups _ => ?_, fun name key sourceData isAt => ?_⟩⟩
  · cases List.mem_singleton.mp member
    rw [groups] at inGroups
    cases List.mem_singleton.mp inGroups
    exact FillsInOrder.of_main (by decide) (by decide)
  · rw [List.flatMap_singleton, groups, leaving, List.filter_cons_of_neg (by simp [leavesEntry])] at isAt
    cases isAt

/-- Only the second output has items: they stand on the first input, beside the source of the first output. -/
theorem not_places : graph.WellFormed ∧
    ∃ state, recreateNodeExecutionStack comparePlain graph [merge] (ran [] [2]) ∅ = .ok state ∧
      ¬ PlacesData graph [merge] (ran [] [2]) ∅ state := by
  have runs : ∃ state item sources, recreateNodeExecutionStack comparePlain graph [merge] (ran [] [2]) ∅ = .ok state ∧
      item ∈ state.nodeExecutionStack ∧ item.source = some sources ∧
        SparseArray.read (mainSlots item.data) 0 = .full [2] ∧
          SparseArray.read (mainSources sources) 0 = .full ⟨"branch", some 0, some 0⟩ :=
    ⟨_, _, _, rfl, List.mem_cons_self, rfl, rfl, rfl⟩
  obtain ⟨state, item, sources, returns, onStack, isSource, data, source⟩ := runs
  refine ⟨by decide, state, returns, fun places => ?_⟩
  obtain ⟨startNode, _, _, how⟩ := places.stack item onStack
  cases how with
  | inl noInput =>
    rw [isSource] at noInput
    cases noInput.2.2
  | inr placed =>
    obtain ⟨sources', isSource', placed⟩ := placed
    rw [isSource] at isSource'
    cases isSource'
    have here := placed 0
    rw [data, source] at here
    obtain ⟨connection, inGraph, _, _, atIndex, items, runIndex, sameData, _, taken⟩ :=
      here.resolve_left fun nothing => Bool.noConfusion nothing.2
    cases sameData
    have first : connection = ⟨branch, merge, .main, 0, 0⟩ := by
      have onlyFirst : ∀ connection ∈ graph.connections.values, connection.inputIndex = 0 →
          connection = ⟨branch, merge, .main, 0, 0⟩ := by decide
      exact onlyFirst connection inGraph atIndex
    rw [first] at taken
    cases taken with
    | inl pinned => cases pinned.1
    | inr ran =>
      obtain ⟨_, run, isRun, items⟩ := ran
      have nothing : ∀ run ∈ runsOf (TwoOutputs.ran [] [2]) "branch", itemsOn .main 0 run = [] := by decide
      rw [nothing run (List.mem_of_getElem? isRun)] at items
      cases items

end TwoOutputs

end N8n.Core
