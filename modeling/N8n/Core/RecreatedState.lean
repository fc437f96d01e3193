import N8n.Core.IncomingData
import N8n.Core.WaitingShape

/-! # The state a partial execution starts from

When `recreateNodeExecutionStack` returns, and the stack items and the waiting
entries it returns, each as a function of the group of connections that it is
made for.
-/

namespace N8n.Core

variable {Item : Type}

/-! ## What a connection carries -/

def recorded (runData : IRunData Item) (connection : GraphConnection) : Option (IncomingData Item) :=
  firstItems connection.type connection.outputIndex 0 (runsOf runData connection.from.name)

/-- Pinned data goes before recorded data. -/
def available (runData : IRunData Item) (pinData : IPinData Item) (connection : GraphConnection) :
    Option (IncomingData Item) :=
  match pinData.get? connection.from.name with
  | some pinned => some ⟨pinned, 0⟩
  | none => recorded runData connection

def sourceOf (connection : GraphConnection) (runIndex : Nat) : Slot ISourceData :=
  .full ⟨connection.from.name, some connection.outputIndex, some runIndex⟩

def readable (runData : IRunData Item) (connection : GraphConnection) : Bool :=
  scannable connection.type connection.outputIndex (runsOf runData connection.from.name)

variable {runData : IRunData Item} {connection : GraphConnection}

theorem throws_of_not_readable (notReadable : readable runData connection = false) :
    ∃ thrown, getIncomingDataFromAnyRun runData connection.from.name connection.type connection.outputIndex =
      .error thrown := by
  cases found : getIncomingDataFromAnyRun runData connection.from.name connection.type connection.outputIndex with
  | error thrown => exact ⟨thrown, rfl⟩
  | ok incoming =>
    rw [readable, (getIncomingDataFromAnyRun_inv found).1] at notReadable
    cases notReadable

/-! ## A complete group -/

def stackItem (runData : IRunData Item) (pinData : IPinData Item) (startNode : INode)
    (sourceData : SourceConnectionGroup) : IExecuteData Item where
  node := some startNode
  data := onlyMain (sourceData.connections.filterMap fun connection =>
    (available runData pinData connection).map (.full ·.data))
  source := some (onlyMain (sourceData.connections.map fun connection =>
    sourceOf connection ((available runData pinData connection).elim 0 (·.runIndex))))

def CollectReadable (runData : IRunData Item) (pinData : IPinData Item) (connection : GraphConnection) : Prop :=
  pinData.has connection.from.name = true ∨
    runData.has connection.from.name = true ∧ readable runData connection = true

def collect (runData : IRunData Item) (pinData : IPinData Item) (collected : Collected Item)
    (connection : GraphConnection) : Collected Item :=
  ⟨collected.incomingData ++ ((available runData pinData connection).map (.full ·.data)).toList,
    collected.incomingSourceData ++
      [sourceOf connection ((available runData pinData connection).elim 0 (·.runIndex))]⟩

variable {pinData : IPinData Item} {startNode : INode}

theorem collectIncoming_eq_ok_iff {collected next : Collected Item} :
    collectIncoming runData pinData startNode collected connection = .ok next ↔
      CollectReadable runData pinData connection ∧ next = collect runData pinData collected connection := by
  cases isPinned : pinData.get? connection.from.name with
  | some pinned =>
    have hasPinned : pinData.has connection.from.name = true := by rw [OrderedMap.has, isPinned]; rfl
    rw [collectIncoming, isPinned, CollectReadable, and_iff_right (.inl hasPinned), collect, available, isPinned]
    exact Loop.ok_eq_ok_iff
  | none =>
    have notPinned : pinData.has connection.from.name ≠ true := by simp [OrderedMap.has, isPinned]
    rw [collectIncoming, isPinned, CollectReadable, or_iff_right notPinned, collect, available, isPinned]
    dsimp only
    split
    · rename_i ran
      rw [and_iff_right ran]
      cases scans : readable runData connection with
      | true =>
        rw [and_iff_right rfl, getIncomingDataFromAnyRun_returns scans, recorded]
        cases firstItems connection.type connection.outputIndex 0 (runsOf runData connection.from.name) with
        | none =>
          rw [Option.map_none, Option.toList_none, List.append_nil]
          exact Loop.ok_eq_ok_iff
        | some found => exact Loop.ok_eq_ok_iff
      | false =>
        obtain ⟨thrown, throws⟩ := throws_of_not_readable scans
        rw [throws]
        constructor
        · intro returns
          cases returns
        · intro reads
          cases reads.1
    · rename_i notRan
      simp [notRan]

theorem foldl_collect (connections : List GraphConnection) (collected : Collected Item) :
    connections.foldl (collect runData pinData) collected =
      ⟨collected.incomingData ++ connections.filterMap fun connection =>
          (available runData pinData connection).map (.full ·.data),
        collected.incomingSourceData ++ connections.map fun connection =>
          sourceOf connection ((available runData pinData connection).elim 0 (·.runIndex))⟩ := by
  induction connections generalizing collected with
  | nil => simp
  | cons connection rest ih =>
    rw [List.foldl_cons, ih, collect]
    cases isAvailable : available runData pinData connection <;> simp [isAvailable]

/-! ## An incomplete group -/

section

variable {α : Type} (slot : GraphConnection → Option (Slot α))

def fillEntry (entry : OrderedMap NodeConnectionType (List (Slot α))) (connection : GraphConnection) :
    OrderedMap NodeConnectionType (List (Slot α)) :=
  match slot connection with
  | some value => entry.set connection.type
      (SparseArray.write ((entry.get? connection.type).getD []) connection.inputIndex value)
  | none => entry

/-- The same in the table of all waiting entries. -/
def fillTable (nodeName : String) (runIndex : Nat)
    (table : OrderedMap String (OrderedMap Nat (OrderedMap NodeConnectionType (List (Slot α)))))
    (connection : GraphConnection) :
    OrderedMap String (OrderedMap Nat (OrderedMap NodeConnectionType (List (Slot α)))) :=
  match slot connection with
  | some value => addToTable table nodeName runIndex connection.type connection.inputIndex value
  | none => table

variable {slot}

variable {connections : List GraphConnection}

theorem foldl_fillEntry_of_none (nothing : ∀ connection ∈ connections, slot connection = none)
    (entry : OrderedMap NodeConnectionType (List (Slot α))) : connections.foldl (fillEntry slot) entry = entry := by
  induction connections with
  | nil => rfl
  | cons connection rest ih =>
    rw [List.foldl_cons, fillEntry, nothing connection List.mem_cons_self]
    exact ih fun other member => nothing other (List.mem_cons_of_mem connection member)

theorem row_foldl_fillTable (nodeName : String) (runIndex : Nat) (connections : List GraphConnection)
    (table : OrderedMap String (OrderedMap Nat (OrderedMap NodeConnectionType (List (Slot α))))) (name : String) :
    (connections.foldl (fillTable slot nodeName runIndex) table).row name =
      if name = nodeName ∧ ∃ connection ∈ connections, (slot connection).isSome = true then
        (table.row nodeName).set runIndex
          (connections.foldl (fillEntry slot) (((table.row nodeName).get? runIndex).getD ∅))
      else table.row name := by
  induction connections generalizing table with
  | nil => simp
  | cons connection rest ih =>
    simp only [List.foldl_cons, ih, List.exists_mem_cons_iff]
    rw [fillTable, fillEntry]
    cases writes : slot connection with
    | none => simp
    | some value =>
      dsimp only
      rw [addToTable, OrderedMap.row_set, OrderedMap.row_set, if_pos rfl, OrderedMap.get?_set_self,
        OrderedMap.set_set]
      by_cases same : name = nodeName
      · by_cases more : ∃ other ∈ rest, (slot other).isSome = true
        · rw [if_pos ⟨same, more⟩, if_pos ⟨same, .inr more⟩]
          rfl
        · have nothing : ∀ other ∈ rest, slot other = none := by
            intro other member
            by_contra writesMore
            exact more ⟨other, member, Option.isSome_iff_ne_none.mpr writesMore⟩
          rw [if_neg fun both => more both.2, if_pos same, if_pos ⟨same, .inl rfl⟩, foldl_fillEntry_of_none nothing]
      · rw [if_neg fun both => same both.1, if_neg same, if_neg fun both => same both.1]

theorem read_fillEntry_of_none {connectionType : NodeConnectionType} {index : Nat}
    (nothing : ∀ connection ∈ connections, connection.type = connectionType → connection.inputIndex = index →
      slot connection = none) (entry : OrderedMap NodeConnectionType (List (Slot α))) :
    SparseArray.read (((connections.foldl (fillEntry slot) entry).get? connectionType).getD []) index =
      SparseArray.read ((entry.get? connectionType).getD []) index := by
  induction connections generalizing entry with
  | nil => rfl
  | cons connection rest ih =>
    rw [List.foldl_cons, ih fun other member =>
      nothing other (List.mem_cons_of_mem connection member), fillEntry]
    cases writes : slot connection with
    | none => rfl
    | some value =>
      dsimp only
      rw [OrderedMap.get?_set]
      split
      · rename_i same
        rw [Option.getD_some, SparseArray.read_write, if_neg, same]
        intro atIndex
        rw [nothing connection List.mem_cons_self same.symm atIndex.symm] at writes
        cases writes
      · rfl

theorem read_fillEntry (distinct : (connections.map (·.inputIndex)).Nodup) {connection : GraphConnection}
    (member : connection ∈ connections) (entry : OrderedMap NodeConnectionType (List (Slot α))) {value : Slot α}
    (writes : slot connection = some value) :
    SparseArray.read (((connections.foldl (fillEntry slot) entry).get? connection.type).getD [])
      connection.inputIndex = value := by
  induction connections generalizing entry with
  | nil => cases member
  | cons first rest ih =>
    rw [List.map_cons, List.nodup_cons] at distinct
    rw [List.foldl_cons]
    cases List.mem_cons.mp member with
    | inl isFirst =>
      subst isFirst
      rw [read_fillEntry_of_none]
      · rw [fillEntry, writes]
        dsimp only
        rw [OrderedMap.get?_set_self, Option.getD_some, SparseArray.read_write, if_pos rfl]
      · intro other inside _ sameIndex
        exact absurd (sameIndex ▸ List.mem_map_of_mem inside) distinct.1
    | inr later => exact ih distinct.2 later _

end

def entryOf (runData : IRunData Item) (sourceData : SourceConnectionGroup) : ITaskDataConnections Item :=
  sourceData.connections.foldl (fillEntry fun connection => (recorded runData connection).map (.full ·.data)) ∅

/-- Its sources; they name the index of the entry as the run. -/
def sourceEntryOf (runData : IRunData Item) (runIndex : Nat) (sourceData : SourceConnectionGroup) :
    ITaskDataConnectionsSource :=
  sourceData.connections.foldl (fillEntry fun connection =>
    (recorded runData connection).map fun _ => sourceOf connection runIndex) ∅

/-- An incomplete group one of whose connections carries recorded data. -/
def leavesEntry (runData : IRunData Item) (sourceData : SourceConnectionGroup) : Bool :=
  !sourceData.complete && sourceData.connections.any fun connection => (recorded runData connection).isSome

def withIncoming (runData : IRunData Item) (nodeName : String) (runIndex : Nat) (state : ExecutionState Item)
    (connections : List GraphConnection) : ExecutionState Item :=
  { state with
    waitingExecution := connections.foldl
      (fillTable (fun connection => (recorded runData connection).map (.full ·.data)) nodeName runIndex)
      state.waitingExecution
    waitingExecutionSource := connections.foldl
      (fillTable (fun connection => (recorded runData connection).map fun _ => sourceOf connection runIndex)
        nodeName runIndex) state.waitingExecutionSource }

variable {nodeName : String} {runIndex : Nat} {state next : ExecutionState Item}

theorem addIncoming_eq_ok_iff :
    addIncoming runData nodeName runIndex state connection = .ok next ↔ readable runData connection = true ∧
      next = withIncoming runData nodeName runIndex state [connection] := by
  rw [addIncoming, withIncoming, List.foldl_cons, List.foldl_nil, List.foldl_cons, List.foldl_nil, fillTable, fillTable]
  cases scans : readable runData connection with
  | true =>
    rw [getIncomingDataFromAnyRun_returns scans, and_iff_right rfl, recorded]
    cases firstItems connection.type connection.outputIndex 0 (runsOf runData connection.from.name) with
    | none => exact Loop.ok_eq_ok_iff
    | some found => exact Loop.ok_eq_ok_iff
  | false =>
    obtain ⟨thrown, throws⟩ := throws_of_not_readable scans
    rw [throws]
    constructor
    · intro returns
      cases returns
    · intro reads
      cases reads.1

/-! ## The whole function -/

def GroupReadable (runData : IRunData Item) (pinData : IPinData Item) (sourceData : SourceConnectionGroup) : Prop :=
  if sourceData.complete then ∀ connection ∈ sourceData.connections, CollectReadable runData pinData connection
  else ∀ connection ∈ sourceData.connections, readable runData connection = true

def withGroup (runData : IRunData Item) (pinData : IPinData Item) (state : ExecutionState Item)
    (pair : INode × SourceConnectionGroup) : ExecutionState Item :=
  if pair.2.complete then
    { state with nodeExecutionStack := state.nodeExecutionStack ++ [stackItem runData pinData pair.1 pair.2] }
  else
    withIncoming runData pair.1.name (state.waitingExecution.row pair.1.name).size state pair.2.connections

theorem foldl_withIncoming (connections : List GraphConnection) (state : ExecutionState Item) :
    connections.foldl (fun state connection => withIncoming runData nodeName runIndex state [connection]) state =
      withIncoming runData nodeName runIndex state connections := by
  induction connections generalizing state with
  | nil => rfl
  | cons connection rest ih =>
    rw [List.foldl_cons, ih]
    rfl

theorem foldlM_addIncoming_eq_ok_iff {connections : List GraphConnection} :
    connections.foldlM (addIncoming runData nodeName runIndex) state = .ok next ↔
      (∀ connection ∈ connections, readable runData connection = true) ∧
        next = withIncoming runData nodeName runIndex state connections := by
  rw [Loop.foldlM_eq_ok_iff fun connection _ state final => addIncoming_eq_ok_iff, foldl_withIncoming]

theorem addGroup_eq_ok_iff {sourceData : SourceConnectionGroup} :
    addGroup runData pinData startNode state sourceData = .ok next ↔
      GroupReadable runData pinData sourceData ∧ next = withGroup runData pinData state (startNode, sourceData) := by
  rw [addGroup, GroupReadable, withGroup]
  split
  · have collects : ∀ collected : Collected Item, sourceData.connections.foldlM
          (collectIncoming runData pinData startNode) ⟨[], []⟩ = .ok collected ↔
        (∀ connection ∈ sourceData.connections, CollectReadable runData pinData connection) ∧ collected =
          ⟨sourceData.connections.filterMap fun connection => (available runData pinData connection).map (.full ·.data),
            sourceData.connections.map fun connection =>
              sourceOf connection ((available runData pinData connection).elim 0 (·.runIndex))⟩ := by
      intro collected
      rw [Loop.foldlM_eq_ok_iff fun connection _ state final => collectIncoming_eq_ok_iff, foldl_collect]
      rfl
    constructor
    · intro returns
      obtain ⟨collected, loop, built⟩ := Loop.bind_inv returns
      obtain ⟨reads, rfl⟩ := (collects collected).mp loop
      exact ⟨reads, (Except.ok.inj built).symm⟩
    · intro runs
      rw [(collects _).mpr ⟨runs.1, rfl⟩, runs.2]
      rfl
  · exact foldlM_addIncoming_eq_ok_iff

def emptyItem [Inhabited Item] (startNode : INode) : IExecuteData Item where
  node := some startNode
  data := onlyMain [.full [default]]
  source := none

def withStartNode (localeCompare : String → String → Ordering) [Inhabited Item] (graph : DirectedGraph)
    (runData : IRunData Item) (pinData : IPinData Item) (state : ExecutionState Item) (startNode : INode) :
    ExecutionState Item :=
  if HasMainInput graph startNode then
    (groupsOf localeCompare graph runData pinData startNode).foldl (withGroup runData pinData) state
  else { state with nodeExecutionStack := state.nodeExecutionStack ++ [emptyItem startNode] }

def StartReadable (localeCompare : String → String → Ordering) (graph : DirectedGraph) (runData : IRunData Item)
    (pinData : IPinData Item) (startNode : INode) : Prop :=
  graph.Contains startNode ∧ ∀ pair ∈ groupsOf localeCompare graph runData pinData startNode,
    GroupReadable runData pinData pair.2

variable {localeCompare : String → String → Ordering} {graph : DirectedGraph}

theorem addStartNode_eq_ok_iff [Inhabited Item] :
    addStartNode localeCompare graph runData pinData state startNode = .ok next ↔
      StartReadable localeCompare graph runData pinData startNode ∧
        next = withStartNode localeCompare graph runData pinData state startNode := by
  rw [addStartNode, StartReadable, withStartNode, groupsOf]
  by_cases contains : graph.Contains startNode
  · have parents : graph.getDirectParentConnections startNode =
        .ok (graph.connections.values.filter fun connection => connection.to = startNode) := if_pos contains
    rw [parents, and_iff_right contains]
    show (if _ then _ else _) = Except.ok next ↔ _
    by_cases hasInput : HasMainInput graph startNode
    · rw [if_neg fun noInput => isEmpty_mainParents_iff.mp noInput hasInput, if_pos hasInput, if_pos hasInput,
        Loop.foldlM_eq_ok_iff fun sourceData _ state final => addGroup_eq_ok_iff, List.foldl_map]
      simp
    · rw [if_pos (isEmpty_mainParents_iff.mpr hasInput), if_neg hasInput, if_neg hasInput]
      simp only [List.not_mem_nil, false_imp_iff, implies_true, true_and]
      exact Loop.ok_eq_ok_iff
  · have throws : graph.getDirectParentConnections startNode = .error (.assertionError "nodeExists") :=
      if_neg contains
    rw [throws]
    constructor
    · intro returns
      cases returns
    · intro reads
      exact absurd reads.1.1 contains

/-- The function returns when no node is disabled and it can read what it needs. -/
def Recreatable (localeCompare : String → String → Ordering) (graph : DirectedGraph) (startNodes : List INode)
    (runData : IRunData Item) (pinData : IPinData Item) : Prop :=
  (∀ node ∈ graph.nodes.values, node.isDisabled = false) ∧
    ∀ startNode ∈ startNodes, StartReadable localeCompare graph runData pinData startNode

variable {state : ExecutionState Item}

theorem recreateNodeExecutionStack_eq_ok_iff [Inhabited Item] {startNodes : List INode} :
    recreateNodeExecutionStack localeCompare graph startNodes runData pinData = .ok state ↔
      Recreatable localeCompare graph startNodes runData pinData ∧
        state = startNodes.foldl (withStartNode localeCompare graph runData pinData) ⟨[], ∅, ∅⟩ := by
  rw [recreateNodeExecutionStack, Recreatable, DirectedGraph.getNodes]
  cases found : graph.nodes.values.find? (·.isDisabled) with
  | some node =>
    have isDisabled := List.find?_some found
    have member := List.mem_of_find?_eq_some found
    constructor
    · intro returns
      cases returns
    · intro reads
      rw [reads.1.1 node member] at isDisabled
      cases isDisabled
  | none =>
    have noneDisabled : ∀ node ∈ graph.nodes.values, node.isDisabled = false := by
      simpa using List.find?_eq_none.mp found
    rw [and_iff_right noneDisabled]
    exact Loop.foldlM_eq_ok_iff fun startNode _ state final => addStartNode_eq_ok_iff

/-! ## What the state holds -/

theorem withGroup_nodeExecutionStack (pairs : List (INode × SourceConnectionGroup)) (state : ExecutionState Item) :
    (pairs.foldl (withGroup runData pinData) state).nodeExecutionStack = state.nodeExecutionStack ++
      (pairs.filter (·.2.complete)).map fun pair => stackItem runData pinData pair.1 pair.2 := by
  induction pairs generalizing state with
  | nil => simp
  | cons pair rest ih =>
    rw [List.foldl_cons, ih, withGroup]
    split
    · rename_i complete
      simp [complete]
    · rename_i incomplete
      simp [incomplete, withIncoming]

def stackItems (localeCompare : String → String → Ordering) [Inhabited Item] (graph : DirectedGraph)
    (runData : IRunData Item) (pinData : IPinData Item) (startNode : INode) : List (IExecuteData Item) :=
  if HasMainInput graph startNode then
    ((groupsOf localeCompare graph runData pinData startNode).filter (·.2.complete)).map fun pair =>
      stackItem runData pinData pair.1 pair.2
  else [emptyItem startNode]

/-- The groups handled for nodes of a name that leave a waiting entry, in their order. -/
def leaving (runData : IRunData Item) (done : List (INode × SourceConnectionGroup)) (name : String) :
    List SourceConnectionGroup :=
  (done.filter fun pair => pair.1.name = name && leavesEntry runData pair.2).map (·.2)

/-- The waiting entries of a node are those of its groups, numbered from 0. -/
structure Waits (runData : IRunData Item) (done : List (INode × SourceConnectionGroup))
    (state : ExecutionState Item) : Prop where
  entries : ∀ name, (state.waitingExecution.row name).entries =
    (leaving runData done name).mapIdx fun key sourceData => (key, entryOf runData sourceData)
  sources : ∀ name, (state.waitingExecutionSource.row name).entries =
    (leaving runData done name).mapIdx fun key sourceData => (key, sourceEntryOf runData key sourceData)

theorem get?_of_entries {α β : Type} {map : OrderedMap Nat β} {items : List α} {value : Nat → α → β}
    (entries : map.entries = items.mapIdx fun key item => (key, value key item)) (key : Nat) :
    map.get? key = items[key]?.map (value key) := by
  apply Option.ext
  intro other
  rw [← Option.mem_def, Option.mem_def, OrderedMap.get?_eq_some, entries, List.mem_mapIdx, Option.map_eq_some_iff]
  constructor
  · intro found
    obtain ⟨index, inside, same⟩ := found
    cases same
    exact ⟨items[key], List.getElem?_eq_getElem inside, rfl⟩
  · intro found
    obtain ⟨item, isItem, rfl⟩ := found
    obtain ⟨inside, rfl⟩ := List.getElem?_eq_some_iff.mp isItem
    exact ⟨key, inside, rfl⟩

theorem size_of_entries {α β : Type} {map : OrderedMap Nat β} {items : List α} {value : Nat → α → β}
    (entries : map.entries = items.mapIdx fun key item => (key, value key item)) : map.size = items.length := by
  rw [← OrderedMap.length_keys, OrderedMap.keys, entries]
  simp

theorem entries_set_next {α β : Type} {map : OrderedMap Nat β} {items : List α} {value : Nat → α → β}
    (entries : map.entries = items.mapIdx fun key item => (key, value key item)) (item : α) :
    (map.set items.length (value items.length item)).entries =
      (items ++ [item]).mapIdx fun key item => (key, value key item) := by
  have isFree : items.length ∉ map.keys := by
    rw [← OrderedMap.get?_eq_none, get?_of_entries entries, List.getElem?_eq_none (Nat.le_refl _)]
    rfl
  rw [OrderedMap.entries_set_of_not_mem isFree, entries, List.mapIdx_concat]

theorem leaving_snoc {done : List (INode × SourceConnectionGroup)} {pair : INode × SourceConnectionGroup}
    {name : String} :
    leaving runData (done ++ [pair]) name = leaving runData done name ++
      if pair.1.name = name ∧ leavesEntry runData pair.2 = true then [pair.2] else [] := by
  rw [leaving, List.filter_append, List.map_append, leaving]
  split
  · rename_i leaves
    rw [List.filter_cons_of_pos (by simp [leaves])]
    rfl
  · rename_i leavesNone
    rw [List.filter_cons_of_neg (by simpa using leavesNone)]
    rfl

theorem Waits.withGroup {done : List (INode × SourceConnectionGroup)}
    (waits : Waits runData done state) (pair : INode × SourceConnectionGroup) :
    Waits runData (done ++ [pair]) (N8n.Core.withGroup runData pinData state pair) := by
  rw [N8n.Core.withGroup]
  split
  · rename_i complete
    have leavesNone : ∀ name, leaving runData (done ++ [pair]) name = leaving runData done name := by
      intro name
      rw [leaving_snoc, if_neg (by simp [leavesEntry, complete]), List.append_nil]
    exact ⟨fun name => leavesNone name ▸ waits.entries name, fun name => leavesNone name ▸ waits.sources name⟩
  · rename_i incomplete
    have sizes : (state.waitingExecution.row pair.1.name).size = (leaving runData done pair.1.name).length :=
      size_of_entries (waits.entries pair.1.name)
    have leaves_iff : leavesEntry runData pair.2 = true ↔
        ∃ connection ∈ pair.2.connections, (recorded runData connection).isSome = true := by
      simp [leavesEntry, incomplete]
    constructor
    · intro name
      rw [withIncoming, row_foldl_fillTable, leaving_snoc, sizes]
      simp only [Option.isSome_map, ← leaves_iff]
      by_cases here : name = pair.1.name ∧ leavesEntry runData pair.2 = true
      · rw [if_pos here, here.1, if_pos ⟨rfl, here.2⟩, get?_of_entries (waits.entries pair.1.name),
          List.getElem?_eq_none (Nat.le_refl _)]
        exact entries_set_next (waits.entries pair.1.name) pair.2
      · rw [if_neg here, if_neg fun both => here ⟨both.1.symm, both.2⟩, List.append_nil]
        exact waits.entries name
    · intro name
      rw [withIncoming, row_foldl_fillTable, leaving_snoc, sizes]
      simp only [Option.isSome_map, ← leaves_iff]
      by_cases here : name = pair.1.name ∧ leavesEntry runData pair.2 = true
      · rw [if_pos here, here.1, if_pos ⟨rfl, here.2⟩, get?_of_entries (waits.sources pair.1.name),
          List.getElem?_eq_none (Nat.le_refl _)]
        exact entries_set_next (waits.sources pair.1.name) pair.2
      · rw [if_neg here, if_neg fun both => here ⟨both.1.symm, both.2⟩, List.append_nil]
        exact waits.sources name

theorem Waits.withGroups (pairs : List (INode × SourceConnectionGroup)) :
    ∀ {done : List (INode × SourceConnectionGroup)}
    {state : ExecutionState Item}, Waits runData done state →
      Waits runData (done ++ pairs) (pairs.foldl (N8n.Core.withGroup runData pinData) state) := by
  induction pairs with
  | nil =>
    intro done state waits
    rw [List.append_nil]
    exact waits
  | cons pair rest ih =>
    intro done state waits
    rw [List.foldl_cons, List.append_cons]
    exact ih (waits.withGroup pair)

/-- What the function returned: the items of the complete groups and the entries of the others. -/
structure Recreated (localeCompare : String → String → Ordering) [Inhabited Item] (graph : DirectedGraph)
    (startNodes : List INode) (runData : IRunData Item) (pinData : IPinData Item) (state : ExecutionState Item) :
    Prop where
  stack : state.nodeExecutionStack = startNodes.flatMap (stackItems localeCompare graph runData pinData)
  waits : Waits runData (startNodes.flatMap (groupsOf localeCompare graph runData pinData)) state

theorem recreated_of_foldl [Inhabited Item] (startNodes : List INode) :
    ∀ {before : List INode} {state : ExecutionState Item},
      Recreated localeCompare graph before runData pinData state →
        Recreated localeCompare graph (before ++ startNodes) runData pinData
          (startNodes.foldl (withStartNode localeCompare graph runData pinData) state) := by
  induction startNodes with
  | nil =>
    intro before state recreated
    rw [List.append_nil]
    exact recreated
  | cons startNode rest ih =>
    intro before state recreated
    rw [List.foldl_cons, List.append_cons]
    apply ih
    rw [withStartNode]
    split
    · rename_i hasInput
      constructor
      · rw [withGroup_nodeExecutionStack, recreated.stack, List.flatMap_append, List.flatMap_singleton, stackItems,
          if_pos hasInput]
      · rw [List.flatMap_append, List.flatMap_singleton]
        exact recreated.waits.withGroups _
    · rename_i noInput
      constructor
      · rw [recreated.stack, List.flatMap_append, List.flatMap_singleton, stackItems, if_neg noInput]
      · rw [List.flatMap_append, List.flatMap_singleton, groupsOf, if_neg noInput, List.append_nil]
        exact ⟨recreated.waits.entries, recreated.waits.sources⟩

theorem recreated_of_returns [Inhabited Item] {startNodes : List INode}
    (returns : recreateNodeExecutionStack localeCompare graph startNodes runData pinData = .ok state) :
    Recreated localeCompare graph startNodes runData pinData state := by
  obtain ⟨_, rfl⟩ := recreateNodeExecutionStack_eq_ok_iff.mp returns
  have start : Recreated localeCompare graph [] runData pinData (⟨[], ∅, ∅⟩ : ExecutionState Item) :=
    ⟨rfl, fun _ => rfl, fun _ => rfl⟩
  exact recreated_of_foldl startNodes start

end N8n.Core
