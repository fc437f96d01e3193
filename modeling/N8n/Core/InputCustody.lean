import N8n.Core.InputPlacement

/-! # No incoming data is left out

A complete group is put on the stack with pinned or recorded data, an incomplete
one becomes a waiting entry with recorded data only.  The groups hand out every
connection once, so what is lost is the pinned data of incomplete groups.
-/

namespace N8n.Core

variable {Item : Type}

def placesOf (state : ExecutionState Item) (startNode : INode) : List (ITaskDataConnections Item) :=
  (state.nodeExecutionStack.filter (·.node = some startNode)).map (·.data) ++
    (state.waitingExecution.row startNode.name).values

/-- The groups that a stack item or a waiting entry is made for. -/
def producers (runData : IRunData Item) (groups : List SourceConnectionGroup) : List SourceConnectionGroup :=
  groups.filter (·.complete) ++ groups.filter (leavesEntry runData)

/-- A stack item holds the items on some input, a waiting entry on the input of the connection. -/
def HoldsItems (sourceData : SourceConnectionGroup) (place : ITaskDataConnections Item)
    (connection : GraphConnection) (items : List Item) : Prop :=
  if sourceData.complete then ∃ index, SparseArray.read (mainSlots place) index = .full items
  else SparseArray.read (mainSlots place) connection.inputIndex = .full items

/-- Every item and entry of the start node is made for a group of its own and holds the data of the Main connections in
this group; and every Main connection with data is in exactly one of these groups. -/
structure LosesNothing (localeCompare : String → String → Ordering) (graph : DirectedGraph)
    (runData : IRunData Item) (pinData : IPinData Item) (state : ExecutionState Item) (startNode : INode) : Prop where
  holds : List.Forall₂ (fun place sourceData => ∀ connection ∈ sourceData.connections, connection.type = .main →
      ∀ incoming, available runData pinData connection = some incoming →
        HoldsItems sourceData place connection incoming.data) (placesOf state startNode)
    (producers runData (getSourceDataGroups localeCompare graph startNode runData pinData))
  once : ∀ connection ∈ graph.connections.values, connection.to = startNode → connection.type = .main →
    (available runData pinData connection).isSome = true →
      ((producers runData (getSourceDataGroups localeCompare graph startNode runData pinData)).filter
        (connection ∈ ·.connections)).length = 1

/-- Pinned data of an incomplete group is what the first run with items left on the output. -/
def PinnedAsRecorded (runData : IRunData Item) (pinData : IPinData Item) (sourceData : SourceConnectionGroup) : Prop :=
  sourceData.complete = false → ∀ connection ∈ sourceData.connections, connection.type = .main →
    ∀ pinned, pinData.get? connection.from.name = some pinned →
      ∃ incoming, recorded runData connection = some incoming ∧ incoming.data = pinned

/-! ## One start node among several -/

theorem flatMap_eq_of_nodup {α β : Type} {items : List α} (nodup : items.Nodup) {item : α} (member : item ∈ items)
    {part : α → List β} (others : ∀ other ∈ items, other ≠ item → part other = []) :
    items.flatMap part = part item := by
  obtain ⟨before, after, rfl⟩ := List.append_of_mem member
  rw [List.nodup_middle, List.nodup_cons] at nodup
  have nothing : ∀ rest, rest ⊆ before ++ after → rest.flatMap part = [] := by
    intro rest within
    rw [List.flatMap_eq_nil_iff]
    intro other inRest
    have among := within inRest
    refine others other ?_ fun same => nodup.1 (same ▸ among)
    cases List.mem_append.mp among with
    | inl inBefore => exact List.mem_append_left _ inBefore
    | inr inAfter => exact List.mem_append_right _ (List.mem_cons_of_mem item inAfter)
  rw [List.flatMap_append, List.flatMap_cons, nothing before (List.subset_append_left before after),
    nothing after (List.subset_append_right before after), List.append_nil, List.nil_append]

section

variable {localeCompare : String → String → Ordering} [Inhabited Item] {graph : DirectedGraph}
  {startNodes : List INode} {runData : IRunData Item} {pinData : IPinData Item} {state : ExecutionState Item}
  {startNode : INode}

theorem stackItems_node {item : IExecuteData Item}
    (member : item ∈ stackItems localeCompare graph runData pinData startNode) : item.node = some startNode := by
  rw [stackItems] at member
  split at member
  · obtain ⟨pair, inFilter, rfl⟩ := List.mem_map.mp member
    obtain ⟨_, rfl, _⟩ := mem_groupsOf (List.mem_filter.mp inFilter).1
    rfl
  · cases List.mem_singleton.mp member
    rfl

theorem Recreated.placesOf_eq (recreated : Recreated localeCompare graph startNodes runData pinData state)
    (contained : ∀ startNode ∈ startNodes, graph.Contains startNode) (nodup : startNodes.Nodup)
    (member : startNode ∈ startNodes) (hasInput : HasMainInput graph startNode) :
    placesOf state startNode =
      ((getSourceDataGroups localeCompare graph startNode runData pinData).filter (·.complete)).map
          (fun sourceData => (stackItem runData pinData startNode sourceData).data) ++
        ((getSourceDataGroups localeCompare graph startNode runData pinData).filter (leavesEntry runData)).map
          (entryOf runData) := by
  have onStack : state.nodeExecutionStack.filter (·.node = some startNode) =
      stackItems localeCompare graph runData pinData startNode := by
    rw [recreated.stack, List.filter_flatMap, flatMap_eq_of_nodup nodup member, List.filter_eq_self]
    · intro item inItems
      rw [decide_eq_true_eq]
      exact stackItems_node inItems
    · intro other _ different
      rw [List.filter_eq_nil_iff]
      intro item inItems
      rw [decide_eq_true_eq, stackItems_node inItems]
      exact fun same => different (Option.some.inj same)
  have waiting : leaving runData (startNodes.flatMap (groupsOf localeCompare graph runData pinData)) startNode.name =
      (getSourceDataGroups localeCompare graph startNode runData pinData).filter (leavesEntry runData) := by
    rw [leaving, List.filter_flatMap, flatMap_eq_of_nodup nodup member, groupsOf_of_hasMainInput hasInput,
      List.filter_map, List.map_map]
    · simp [Function.comp_def]
    · intro other inStart different
      rw [List.filter_eq_nil_iff]
      intro pair inGroups
      obtain ⟨_, rfl, _⟩ := mem_groupsOf inGroups
      have differentName : pair.1.name ≠ startNode.name := fun sameName => different
        ((contained pair.1 inStart).eq_of_name (contained startNode member) sameName)
      simp [differentName]
  have values : (state.waitingExecution.row startNode.name).values =
      (leaving runData (startNodes.flatMap (groupsOf localeCompare graph runData pinData)) startNode.name).map
        (entryOf runData) := by
    rw [OrderedMap.values, recreated.waits.entries]
    apply List.ext_getElem?
    intro index
    simp [Function.comp_def]
  rw [placesOf, onStack, values, waiting, stackItems, if_pos hasInput, groupsOf_of_hasMainInput hasInput,
    List.filter_map, List.map_map, List.map_map]
  rfl

end

theorem forall₂_append_map_iff {α β : Type} {related : β → α → Prop} {first second : α → β} {before after : List α} :
    List.Forall₂ related (before.map first ++ after.map second) (before ++ after) ↔
      (∀ item ∈ before, related (first item) item) ∧ ∀ item ∈ after, related (second item) item := by
  induction before with
  | nil => simp [List.forall₂_map_left_iff, List.forall₂_same]
  | cons item rest ih =>
    rw [List.map_cons, List.cons_append, List.cons_append, List.forall₂_cons, ih,
      List.forall_mem_cons, and_assoc]

variable {runData : IRunData Item} {sourceData : SourceConnectionGroup}

theorem incomplete_of_leavesEntry (leaves : leavesEntry runData sourceData = true) : sourceData.complete = false := by
  rw [leavesEntry, Bool.and_eq_true, Bool.not_eq_true'] at leaves
  exact leaves.1

variable {connection : GraphConnection}

theorem length_producers_filter {before after : List SourceConnectionGroup}
    (member : connection ∈ sourceData.connections) (apart : ∀ other ∈ before ++ after, connection ∉ other.connections) :
    ((producers runData (before ++ sourceData :: after)).filter (connection ∈ ·.connections)).length =
      if sourceData.complete = true ∨ leavesEntry runData sourceData = true then 1 else 0 := by
  have nothing : ∀ (keep : SourceConnectionGroup → Bool) rest, rest ⊆ before ++ after →
      (rest.filter keep).filter (connection ∈ ·.connections) = [] := by
    intro keep rest within
    rw [List.filter_eq_nil_iff]
    intro other inFilter
    simpa using apart other (within (List.mem_filter.mp inFilter).1)
  have beforeNothing := fun keep => nothing keep before (List.subset_append_left before after)
  have afterNothing := fun keep => nothing keep after (List.subset_append_right before after)
  simp only [producers, List.filter_append, List.length_append, beforeNothing, List.length_nil,
    List.filter_cons]
  cases complete : sourceData.complete with
  | true =>
    have leavesNone : leavesEntry runData sourceData = false := by
      rw [Bool.eq_false_iff]
      intro leaves
      rw [incomplete_of_leavesEntry leaves] at complete
      cases complete
    simp [leavesNone, member, afterNothing]
  | false =>
    cases leaves : leavesEntry runData sourceData with
    | true => simp [member, afterNothing]
    | false => simp [afterNothing]

theorem stackItem_holds {pinData : IPinData Item} {startNode : INode} (complete : sourceData.complete = true)
    (member : connection ∈ sourceData.connections) {incoming : IncomingData Item}
    (isAvailable : available runData pinData connection = some incoming) :
    HoldsItems sourceData (stackItem runData pinData startNode sourceData).data connection incoming.data := by
  rw [HoldsItems, if_pos complete]
  have inside : Slot.full incoming.data ∈ sourceData.connections.filterMap fun connection =>
      (available runData pinData connection).map fun incoming => Slot.full incoming.data :=
    List.mem_filterMap.mpr ⟨connection, member, by rw [isAvailable]; rfl⟩
  obtain ⟨index, isAt⟩ := List.getElem?_of_mem inside
  exact ⟨index, by rw [stackItem, mainSlots_onlyMain, SparseArray.read, List.getD_eq_getElem?_getD, isAt]; rfl⟩

theorem read_entryOf (distinct : (sourceData.connections.map (·.inputIndex)).Nodup)
    (member : connection ∈ sourceData.connections) (isMain : connection.type = .main) :
    SparseArray.read (mainSlots (entryOf runData sourceData)) connection.inputIndex =
      ((recorded runData connection).map fun incoming => Slot.full incoming.data).getD .hole := by
  rw [mainSlots, entryOf]
  cases isRecorded : recorded runData connection with
  | some incoming =>
    rw [← isMain]
    exact read_fillEntry distinct member _ (by rw [isRecorded]; rfl)
  | none =>
    rw [read_fillEntry_of_none]
    · rfl
    · intro other inside _ sameIndex
      obtain rfl : other = connection := List.inj_on_of_nodup_map distinct inside member sameIndex
      rw [isRecorded]
      rfl

section

variable {localeCompare : String → String → Ordering} [Inhabited Item] {graph : DirectedGraph}
  (wellFormed : graph.WellFormed) {startNodes : List INode} (nodup : startNodes.Nodup) {runData : IRunData Item}
  {pinData : IPinData Item} {state : ExecutionState Item}
  (recreatable : Recreatable localeCompare graph startNodes runData pinData)
  (returns : recreateNodeExecutionStack localeCompare graph startNodes runData pinData = .ok state)
  {startNode : INode} (inStart : startNode ∈ startNodes) (hasInput : HasMainInput graph startNode)

include wellFormed nodup recreatable returns inStart hasInput

theorem pinnedAsRecorded_of_losesNothing
    (losesNothing : LosesNothing localeCompare graph runData pinData state startNode) :
    ∀ sourceData ∈ getSourceDataGroups localeCompare graph startNode runData pinData,
      PinnedAsRecorded runData pinData sourceData := by
  intro sourceData inGroups incomplete connection member isMain pinned isPinned
  have isAvailable : available runData pinData connection = some ⟨pinned, 0⟩ := by rw [available, isPinned]
  obtain ⟨inGraph, isTo⟩ := mem_of_mem_group inGroups member
  obtain ⟨holds, once⟩ := losesNothing
  rw [(recreated_of_returns returns).placesOf_eq (fun other inStart => (recreatable.2 other inStart).1) nodup
    inStart hasInput, producers, forall₂_append_map_iff] at holds
  have onlyOnce := once connection inGraph isTo isMain (by rw [isAvailable]; rfl)
  obtain ⟨before, group, after, split, inGroup, apart⟩ := exists_group wellFormed inGraph isTo
  have isGroup : sourceData = group := by
    rw [split] at inGroups
    by_contra different
    refine apart sourceData ?_ member
    cases List.mem_append.mp inGroups with
    | inl inBefore => exact List.mem_append_left _ inBefore
    | inr later => exact List.mem_append_right _ ((List.mem_cons.mp later).resolve_left different)
  subst isGroup
  rw [split, length_producers_filter inGroup apart] at onlyOnce
  have leaves : leavesEntry runData sourceData = true := by
    by_contra leavesNone
    rw [if_neg fun either => either.elim (by simp [incomplete]) leavesNone] at onlyOnce
    cases onlyOnce
  have held := holds.2 sourceData (List.mem_filter.mpr ⟨inGroups, leaves⟩) connection member isMain _ isAvailable
  rw [HoldsItems, if_neg (by simp [incomplete]), read_entryOf (nodup_inputIndex inGroups) member isMain] at held
  cases isRecorded : recorded runData connection with
  | none =>
    rw [isRecorded] at held
    cases held
  | some incoming =>
    rw [isRecorded] at held
    exact ⟨incoming, rfl, Slot.full.inj held⟩

theorem losesNothing_of_pinnedAsRecorded
    (asRecorded : ∀ sourceData ∈ getSourceDataGroups localeCompare graph startNode runData pinData,
      PinnedAsRecorded runData pinData sourceData) :
    LosesNothing localeCompare graph runData pinData state startNode := by
  -- an available connection of an incomplete group has the same data recorded
  have isRecorded : ∀ sourceData ∈ getSourceDataGroups localeCompare graph startNode runData pinData,
      sourceData.complete = false → ∀ connection ∈ sourceData.connections, connection.type = .main →
        ∀ incoming, available runData pinData connection = some incoming →
          ∃ found, recorded runData connection = some found ∧ found.data = incoming.data := by
    intro sourceData inGroups incomplete connection member isMain incoming isAvailable
    rw [available] at isAvailable
    split at isAvailable
    · rename_i pinned isPinned
      cases isAvailable
      exact asRecorded sourceData inGroups incomplete connection member isMain pinned
        isPinned
    · exact ⟨incoming, isAvailable, rfl⟩
  constructor
  · rw [(recreated_of_returns returns).placesOf_eq (fun other inStart => (recreatable.2 other inStart).1) nodup
      inStart hasInput, producers, forall₂_append_map_iff]
    constructor
    · intro sourceData inFilter connection member _ incoming isAvailable
      exact stackItem_holds (List.mem_filter.mp inFilter).2 member isAvailable
    · intro sourceData inFilter connection member isMain incoming isAvailable
      obtain ⟨inGroups, leaves⟩ := List.mem_filter.mp inFilter
      have incomplete := incomplete_of_leavesEntry leaves
      obtain ⟨found, isFound, sameData⟩ :=
        isRecorded sourceData inGroups incomplete connection member isMain incoming isAvailable
      rw [HoldsItems, if_neg (by simp [incomplete]), read_entryOf (nodup_inputIndex inGroups) member isMain, isFound,
        ← sameData]
      rfl
  · intro connection inGraph isTo isMain isSome
    obtain ⟨incoming, isAvailable⟩ := Option.isSome_iff_exists.mp isSome
    obtain ⟨before, sourceData, after, split, member, apart⟩ := exists_group wellFormed inGraph isTo
    rw [split, length_producers_filter member apart, if_pos]
    cases complete : sourceData.complete with
    | true => exact .inl rfl
    | false =>
      have inGroups : sourceData ∈ getSourceDataGroups localeCompare graph startNode runData pinData := by
        rw [split]
        exact List.mem_append_right _ List.mem_cons_self
      obtain ⟨found, isFound, _⟩ :=
        isRecorded sourceData inGroups complete connection member isMain incoming isAvailable
      refine .inr ?_
      simp only [leavesEntry, complete, Bool.not_false, Bool.true_and, List.any_eq_true]
      exact ⟨connection, member, by rw [isFound]; rfl⟩

end

/-- Every connection with data contributes it to exactly one stack item or waiting entry if and only if the function
returns and no pinned data is in an incomplete group, unless the run data repeats it. -/
theorem recreateNodeExecutionStack_loses_nothing_iff (localeCompare : String → String → Ordering) [Inhabited Item]
    (graph : DirectedGraph) (wellFormed : graph.WellFormed) (startNodes : List INode) (nodup : startNodes.Nodup)
    (runData : IRunData Item) (pinData : IPinData Item) :
    (∃ state, recreateNodeExecutionStack localeCompare graph startNodes runData pinData = .ok state ∧
      ∀ startNode ∈ startNodes, HasMainInput graph startNode →
        LosesNothing localeCompare graph runData pinData state startNode) ↔
    Recreatable localeCompare graph startNodes runData pinData ∧
      ∀ startNode ∈ startNodes, HasMainInput graph startNode →
        ∀ sourceData ∈ getSourceDataGroups localeCompare graph startNode runData pinData,
          PinnedAsRecorded runData pinData sourceData := by
  constructor
  · intro keeps
    obtain ⟨state, returns, losesNothing⟩ := keeps
    have recreatable := (recreateNodeExecutionStack_eq_ok_iff.mp returns).1
    refine ⟨recreatable, fun startNode inStart hasInput => ?_⟩
    exact pinnedAsRecorded_of_losesNothing wellFormed nodup recreatable returns inStart hasInput
      (losesNothing startNode inStart hasInput)
  · intro condition
    obtain ⟨recreatable, asRecorded⟩ := condition
    obtain ⟨state, returns⟩ : ∃ state,
        recreateNodeExecutionStack localeCompare graph startNodes runData pinData = .ok state :=
      ⟨_, recreateNodeExecutionStack_eq_ok_iff.mpr ⟨recreatable, rfl⟩⟩
    refine ⟨state, returns, fun startNode inStart hasInput => ?_⟩
    exact losesNothing_of_pinnedAsRecorded wellFormed nodup recreatable returns inStart hasInput
      (asRecorded startNode inStart hasInput)

namespace PinnedInput

/-- The first input has pinned data, the second one no data. -/
def first : INode := { id := "0", name := "first", type := "set" }
def second : INode := { id := "1", name := "second", type := "set" }
def merge : INode := { id := "2", name := "merge", type := "merge" }

def graph : DirectedGraph where
  nodes := [first, second, merge].foldl (fun nodes node => nodes.set node.name node) ∅
  connections := [⟨first, merge, .main, 0, 0⟩, ⟨second, merge, .main, 0, 1⟩].foldl
    (fun connections connection => connections.set (makeKey connection) connection) ∅

def pinData : IPinData Nat := (∅ : IPinData Nat).set "first" [1]

/-- The second input has recorded data, so that the group is complete. -/
theorem loses_nothing : ∃ state,
    recreateNodeExecutionStack comparePlain graph [merge] ((∅ : IRunData Nat).set "second" (ranWith [2])) pinData =
        .ok state ∧
      ∀ startNode ∈ [merge], HasMainInput graph startNode → LosesNothing comparePlain graph
        ((∅ : IRunData Nat).set "second" (ranWith [2])) pinData state startNode := by
  have returns : ∃ state, recreateNodeExecutionStack comparePlain graph [merge]
      ((∅ : IRunData Nat).set "second" (ranWith [2])) pinData = .ok state := ⟨_, rfl⟩
  obtain ⟨state, returns⟩ := returns
  refine (recreateNodeExecutionStack_loses_nothing_iff comparePlain graph (by decide) [merge] (by decide)
    ((∅ : IRunData Nat).set "second" (ranWith [2])) pinData).mpr
      ⟨(recreateNodeExecutionStack_eq_ok_iff.mp returns).1, fun startNode member _ sourceData inGroups => ?_⟩
  cases List.mem_singleton.mp member
  have complete : ∀ sourceData ∈ getSourceDataGroups comparePlain graph merge
      ((∅ : IRunData Nat).set "second" (ranWith [2])) pinData, sourceData.complete = true := by decide
  intro incomplete
  rw [complete sourceData inGroups] at incomplete
  cases incomplete

/-- Without run data for the second node the pinned data goes nowhere. -/
theorem not_loses_nothing : graph.WellFormed ∧ ¬ ∃ state,
    recreateNodeExecutionStack comparePlain graph [merge] (∅ : IRunData Nat) pinData = .ok state ∧
      ∀ startNode ∈ [merge], HasMainInput graph startNode →
        LosesNothing comparePlain graph ∅ pinData state startNode := by
  refine ⟨by decide, fun keeps => ?_⟩
  obtain ⟨state, _, losesNothing⟩ := keeps
  have once := (losesNothing merge List.mem_cons_self (by decide)).once ⟨first, merge, .main, 0, 0⟩ (by decide) rfl
    rfl rfl
  have nobody : producers (∅ : IRunData Nat) (getSourceDataGroups comparePlain graph merge ∅ pinData) = [] := by decide
  rw [nobody] at once
  cases once

end PinnedInput

end N8n.Core
