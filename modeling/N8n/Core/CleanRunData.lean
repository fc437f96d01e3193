import N8n.Core.FindSubgraph

/-! # Run data that a partial execution keeps

`packages/core/src/execution-engine/partial-execution-utils/clean-run-data.ts`:
before a partial execution the run data of everything that will run again is
deleted, from the start nodes downwards, with the sub-nodes of these.
-/

namespace N8n.Core

open Relation

variable {Item : Type}

namespace DirectedGraph

/-- Delete the run data of the sub-nodes among the sources of these connections. -/
def deleteSubNodes (newRunData : IRunData Item) (subNodeConnections : List GraphConnection) : IRunData Item :=
  subNodeConnections.foldl (fun newRunData subNodeConnection =>
    -- Sub nodes never use the Main connection type.
    if subNodeConnection.type = .main then newRunData
    else newRunData.erase subNodeConnection.from.name) newRunData

def cleanNode (graph : DirectedGraph) (newRunData : IRunData Item) (node : INode) :
    Except Thrown (IRunData Item) := do
  let subNodeConnections ← graph.getParentConnections node
  .ok (deleteSubNodes (newRunData.erase node.name) subNodeConnections)

def cleanStartNode (graph : DirectedGraph) (newRunData : IRunData Item) (startNode : INode) :
    Except Thrown (IRunData Item) := do
  let children ← graph.getChildren startNode
  (startNode :: children).foldlM graph.cleanNode (newRunData.erase startNode.name)

/-- Remove run data for all nodes that are not part of the subgraph. -/
def cleanNames (graph : DirectedGraph) (newRunData : IRunData Item) : IRunData Item :=
  newRunData.keys.foldl (fun newRunData nodeName =>
    if graph.hasNode nodeName then newRunData else newRunData.erase nodeName) newRunData

def cleanRunData (runData : IRunData Item) (graph : DirectedGraph) (startNodes : List INode) :
    Except Thrown (IRunData Item) := do
  let newRunData ← startNodes.foldlM graph.cleanStartNode runData
  .ok (graph.cleanNames newRunData)

/-! ## What will run again -/

def Rerun (graph : DirectedGraph) (startNodes : List INode) (node : INode) : Prop :=
  ∃ startNode ∈ startNodes, ReflTransGen graph.LeadsTo startNode node

/-- A connection that is not of type Main leads from `u` to `v`. -/
def Serves (graph : DirectedGraph) (u v : INode) : Prop :=
  ∃ connection ∈ graph.connections.values, connection.type ≠ .main ∧ connection.from = u ∧ connection.to = v

/-- A chain of connections that are not of type Main leads to a node that runs again. -/
def FeedsRerun (graph : DirectedGraph) (startNodes : List INode) (node : INode) : Prop :=
  ∃ last, graph.Rerun startNodes last ∧ TransGen graph.Serves node last

/-- What keeps its run data. -/
def Retained (graph : DirectedGraph) (startNodes : List INode) (nodeName : String) : Prop :=
  ∃ node, graph.nodes.get? nodeName = some node ∧ ¬ graph.Rerun startNodes node ∧
    ¬ graph.FeedsRerun startNodes node

/-- A sub-node of any node above a node that runs again, over whatever connections. -/
def ServesAbove (graph : DirectedGraph) (startNodes : List INode) (node : INode) : Prop :=
  ∃ last connection, graph.Rerun startNodes last ∧ graph.UtilityAbove last connection ∧ connection.from = node

section

variable {graph : DirectedGraph} {startNodes : List INode}

theorem Serves.leadsTo {u v : INode} (serves : graph.Serves u v) : graph.LeadsTo u v := by
  obtain ⟨connection, member, _, leaves, leads⟩ := serves
  exact ⟨connection, member, leaves, leads⟩

variable {node : INode}

theorem FeedsRerun.servesAbove (feeds : graph.FeedsRerun startNodes node) :
    graph.ServesAbove startNodes node := by
  obtain ⟨last, rerun, chain⟩ := feeds
  obtain ⟨next, ⟨connection, member, notMain, leaves, rfl⟩, onwards⟩ := TransGen.head'_iff.mp chain
  exact ⟨last, connection, rerun,
    ⟨member, notMain, ReflTransGen.mono (fun _ _ serves => serves.leadsTo) _ _ onwards⟩, leaves⟩

theorem WellFormed.contains_of_reached (wellFormed : graph.WellFormed) {start node : INode}
    (contains : graph.Contains start) (reached : ReflTransGen graph.LeadsTo start node) :
    graph.Contains node := by
  induction reached with
  | refl => exact contains
  | tail _ leads _ =>
    obtain ⟨connection, member, _, rfl⟩ := leads
    exact wellFormed.toNode connection member

/-! ## What the loops delete -/

theorem WellFormed.getChildren_spec (wellFormed : graph.WellFormed) (contains : graph.Contains node) :
    ∃ children, graph.getChildren node = .ok children ∧
      ∀ child, child ∈ children ↔ TransGen graph.LeadsTo node child := by
  let arcs := fun node => (graph.connections.values.filter fun connection => connection.from = node).map (·.to)
  have isArc : ∀ u v, v ∈ arcs u ↔ graph.LeadsTo u v := by
    intro u v
    simp [arcs, LeadsTo, and_assoc]
  have inside : ∀ u v, graph.LeadsTo u v → graph.Contains v := by
    intro u v leads
    obtain ⟨connection, member, _, rfl⟩ := leads
    exact wellFormed.toNode connection member
  have safe : Traversal.Safe (fun current => (graph.getDirectChildConnections current).map fun connections =>
      connections.map (·.to)) arcs id graph.nodes.values graph.Contains := by
    refine ⟨fun node contains => ?_, fun u _ v isChild => ?_, fun u _ v isChild => ?_⟩
    · rw [contains.childConnections]
      rfl
    · exact wellFormed.contains_iff.mp (inside u v ((isArc u v).mp isChild))
    · exact inside u v ((isArc u v).mp isChild)
  have enough : graph.nodes.values.length < graph.nodes.size + 1 := by simp
  obtain ⟨children, returns, marks⟩ := Traversal.markFrom_spec .rangeError safe contains enough
  refine ⟨children, returns, fun child => ?_⟩
  have leads : Traversal.Leads arcs id = graph.LeadsTo := by
    funext u v
    simp [Traversal.Leads, isArc]
  rw [marks, Traversal.ReachableArc, leads, TransGen.tail'_iff]
  simp only [isArc]

theorem deleteSubNodes_pruned (newRunData : IRunData Item) (subNodeConnections : List GraphConnection) :
    newRunData.Pruned (deleteSubNodes newRunData subNodeConnections) fun nodeName =>
      ∃ connection ∈ subNodeConnections, connection.type ≠ .main ∧ nodeName = connection.from.name := by
  refine OrderedMap.foldl_pruned (fun connection _ map => ?_) newRunData
  split
  · rename_i isMain
    exact (OrderedMap.Pruned.refl map).congr (by simp [isMain])
  · rename_i notMain
    exact (OrderedMap.Pruned.erase map _).congr (by simp [notMain])

theorem WellFormed.cleanNode_pruned (wellFormed : graph.WellFormed) (contains : graph.Contains node)
    (newRunData : IRunData Item) :
    ∃ next, graph.cleanNode newRunData node = .ok next ∧ newRunData.Pruned next fun nodeName =>
      nodeName = node.name ∨ ∃ connection, graph.UtilityAbove node connection ∧ nodeName = connection.from.name := by
  obtain ⟨subNodeConnections, found, above⟩ := wellFormed.getParentConnections_spec contains
  refine ⟨_, by rw [cleanNode, found]; rfl,
    ((OrderedMap.Pruned.erase newRunData node.name).trans (deleteSubNodes_pruned _ subNodeConnections)).congr
      fun nodeName => or_congr_right (exists_congr fun connection => ?_)⟩
  rw [above, UtilityAbove]
  exact ⟨fun ⟨⟨member, leads⟩, notMain, named⟩ => ⟨⟨member, notMain, leads⟩, named⟩,
    fun ⟨⟨member, notMain, leads⟩, named⟩ => ⟨⟨member, leads⟩, notMain, named⟩⟩

theorem WellFormed.cleanStartNode_pruned (wellFormed : graph.WellFormed) {startNode : INode}
    (contains : graph.Contains startNode) (newRunData : IRunData Item) :
    ∃ next, graph.cleanStartNode newRunData startNode = .ok next ∧ newRunData.Pruned next fun nodeName =>
      ∃ node, ReflTransGen graph.LeadsTo startNode node ∧ (nodeName = node.name ∨
        ∃ connection, graph.UtilityAbove node connection ∧ nodeName = connection.from.name) := by
  obtain ⟨children, found, below⟩ := wellFormed.getChildren_spec contains
  have reached : ∀ node, node ∈ startNode :: children ↔ ReflTransGen graph.LeadsTo startNode node := by
    intro node
    rw [List.mem_cons, below, reflTransGen_iff_eq_or_transGen]
  have turn : ∀ node ∈ startNode :: children, ∀ map : IRunData Item, ∃ next, graph.cleanNode map node = .ok next ∧
      map.Pruned next fun nodeName => nodeName = node.name ∨
        ∃ connection, graph.UtilityAbove node connection ∧ nodeName = connection.from.name :=
    fun node member map => wellFormed.cleanNode_pruned
      (wellFormed.contains_of_reached contains ((reached node).mp member)) map
  obtain ⟨next, returns, pruned⟩ := OrderedMap.foldlM_pruned turn (newRunData.erase startNode.name)
  refine ⟨next, by rw [cleanStartNode, found]; exact returns,
    ((OrderedMap.Pruned.erase newRunData startNode.name).trans pruned).congr fun nodeName => ?_⟩
  simp only [reached]
  constructor
  · intro either
    cases either with
    | inl isStart => exact ⟨startNode, .refl, .inl isStart⟩
    | inr below => exact below
  · exact .inr

theorem cleanNames_pruned (newRunData : IRunData Item) :
    newRunData.Pruned (graph.cleanNames newRunData) fun nodeName => graph.hasNode nodeName = false := by
  have turn : ∀ nodeName ∈ newRunData.keys, ∀ map : IRunData Item,
      map.Pruned (if graph.hasNode nodeName then map else map.erase nodeName)
        fun key => graph.hasNode nodeName = false ∧ key = nodeName := by
    intro nodeName _ map
    split
    · rename_i inGraph
      exact (OrderedMap.Pruned.refl map).congr (by simp [inGraph])
    · rename_i notInGraph
      exact (OrderedMap.Pruned.erase map nodeName).congr (by simp [notInGraph])
  have pruned := OrderedMap.foldl_pruned turn newRunData
  intro nodeName
  by_cases known : nodeName ∈ newRunData.keys
  · have listed : (∃ key ∈ newRunData.keys, graph.hasNode key = false ∧ nodeName = key) ↔
        graph.hasNode nodeName = false := by
      constructor
      · intro among
        obtain ⟨_, _, absent, rfl⟩ := among
        exact absent
      · intro absent
        exact ⟨nodeName, known, absent, rfl⟩
    exact ⟨fun absent => (pruned nodeName).1 (listed.mpr absent),
      fun inGraph => (pruned nodeName).2 (mt listed.mp inGraph)⟩
  · have missing := OrderedMap.get?_eq_none.mpr known
    have same := (pruned nodeName).2 fun among => by
      obtain ⟨_, isKey, _, rfl⟩ := among
      exact known isKey
    exact ⟨fun _ => same.trans missing, fun _ => same⟩

theorem WellFormed.cleanRunData_pruned (wellFormed : graph.WellFormed)
    (inGraph : ∀ startNode ∈ startNodes, graph.Contains startNode) (runData : IRunData Item) :
    ∃ newRunData, cleanRunData runData graph startNodes = .ok newRunData ∧
      runData.Pruned newRunData fun nodeName => graph.hasNode nodeName = false ∨
        ∃ node, (graph.Rerun startNodes node ∨ graph.ServesAbove startNodes node) ∧ nodeName = node.name := by
  obtain ⟨next, returns, pruned⟩ := OrderedMap.foldlM_pruned
    (fun startNode member map => wellFormed.cleanStartNode_pruned (inGraph startNode member) map) runData
  refine ⟨_, by rw [cleanRunData, returns]; rfl, (pruned.trans (cleanNames_pruned next)).congr fun nodeName => ?_⟩
  rw [or_comm]
  apply or_congr_right
  constructor
  · intro deleted
    obtain ⟨startNode, member, node, reached, how⟩ := deleted
    have rerun : graph.Rerun startNodes node := ⟨startNode, member, reached⟩
    cases how with
    | inl isNode => exact ⟨node, .inl rerun, isNode⟩
    | inr utility =>
      obtain ⟨connection, above, named⟩ := utility
      exact ⟨connection.from, .inr ⟨node, connection, rerun, above, rfl⟩, named⟩
  · intro deleted
    obtain ⟨node, how, rfl⟩ := deleted
    cases how with
    | inl rerun =>
      obtain ⟨startNode, member, reached⟩ := rerun
      exact ⟨startNode, member, node, reached, .inl rfl⟩
    | inr serves =>
      obtain ⟨last, connection, ⟨startNode, member, reached⟩, above, rfl⟩ := serves
      exact ⟨startNode, member, last, reached, .inr ⟨connection, above, rfl⟩⟩

theorem WellFormed.contains_of_deleted (wellFormed : graph.WellFormed)
    (inGraph : ∀ startNode ∈ startNodes, graph.Contains startNode)
    (deleted : graph.Rerun startNodes node ∨ graph.ServesAbove startNodes node) : graph.Contains node := by
  cases deleted with
  | inl rerun =>
    obtain ⟨startNode, member, reached⟩ := rerun
    exact wellFormed.contains_of_reached (inGraph startNode member) reached
  | inr serves =>
    obtain ⟨_, connection, _, above, rfl⟩ := serves
    exact wellFormed.fromNode connection above.1

theorem WellFormed.get?_cleanRunData (wellFormed : graph.WellFormed)
    (inGraph : ∀ startNode ∈ startNodes, graph.Contains startNode) {runData newRunData : IRunData Item}
    (returns : cleanRunData runData graph startNodes = .ok newRunData) {nodeName : String}
    {data : List (ITaskData Item)} (recorded : runData.get? nodeName = some data) :
    newRunData.get? nodeName = some data ↔ ∃ node, graph.nodes.get? nodeName = some node ∧
      ¬ graph.Rerun startNodes node ∧ ¬ graph.ServesAbove startNodes node := by
  obtain ⟨newRunData', returns', pruned⟩ := wellFormed.cleanRunData_pruned inGraph runData
  obtain rfl : newRunData' = newRunData := Except.ok.inj (returns'.symm.trans returns)
  constructor
  · intro kept
    have notDeleted := mt (pruned nodeName).1 (by rw [kept]; exact Option.some_ne_none data)
    simp only [not_or, Bool.not_eq_false, not_exists, not_and] at notDeleted
    obtain ⟨node, isNode⟩ := Option.isSome_iff_exists.mp notDeleted.1
    have named : nodeName = node.name := wellFormed.nodeKeys _ (OrderedMap.get?_eq_some.mp isNode)
    exact ⟨node, isNode, fun rerun => notDeleted.2 node (.inl rerun) named,
      fun serves => notDeleted.2 node (.inr serves) named⟩
  · intro spared
    obtain ⟨node, isNode, notRerun, notServes⟩ := spared
    have named : nodeName = node.name := wellFormed.nodeKeys _ (OrderedMap.get?_eq_some.mp isNode)
    refine ((pruned nodeName).2 fun deleted => ?_).trans recorded
    cases deleted with
    | inl absent => simp [hasNode, OrderedMap.has, isNode] at absent
    | inr among =>
      obtain ⟨other, how, named'⟩ := among
      have contains : graph.Contains node := by rw [Contains, ← named]; exact isNode
      obtain rfl : node = other :=
        contains.eq_of_name (wellFormed.contains_of_deleted inGraph how) (named.symm.trans named')
      exact how.elim notRerun notServes

theorem startNodes_of_cleanRunData {runData newRunData : IRunData Item}
    (returns : cleanRunData runData graph startNodes = .ok newRunData) :
    ∀ startNode ∈ startNodes, graph.Contains startNode := by
  intro startNode member
  obtain ⟨next, loop, _⟩ := Loop.bind_inv returns
  obtain ⟨before, after, turn⟩ := Loop.exists_turn_of_mem_foldlM loop member
  obtain ⟨children, found, _⟩ := Loop.bind_inv turn
  by_contra notContained
  have throws : graph.getDirectChildConnections startNode = .error (.assertionError "nodeExists") :=
    if_neg notContained
  rw [getChildren, Traversal.markFrom, throws] at found
  cases found

end

/-- The run data of exactly the nodes that do not run again is kept if and only if every sub-node that serves a node
above one that runs again, and has run data, serves one that runs again as well. -/
theorem cleanRunData_exact_iff (graph : DirectedGraph) (wellFormed : graph.WellFormed) (startNodes : List INode)
    (runData : IRunData Item) :
    (∃ newRunData, cleanRunData runData graph startNodes = .ok newRunData ∧
      ∀ nodeName data, runData.get? nodeName = some data →
        (newRunData.get? nodeName = some data ↔ graph.Retained startNodes nodeName)) ↔
    (∀ startNode ∈ startNodes, graph.Contains startNode) ∧
      ∀ node, graph.Contains node → runData.has node.name = true → ¬ graph.Rerun startNodes node →
        graph.ServesAbove startNodes node → graph.FeedsRerun startNodes node := by
  constructor
  · intro isExact
    obtain ⟨newRunData, returns, exact⟩ := isExact
    have inGraph := startNodes_of_cleanRunData returns
    refine ⟨inGraph, fun node contains recorded notRerun serves => ?_⟩
    obtain ⟨data, isData⟩ := Option.isSome_iff_exists.mp recorded
    by_contra notFeeds
    have kept := (exact node.name data isData).mpr ⟨node, contains, notRerun, notFeeds⟩
    obtain ⟨other, isOther, _, notServes⟩ := (wellFormed.get?_cleanRunData inGraph returns isData).mp kept
    exact notServes (Option.some.inj (contains.symm.trans isOther) ▸ serves)
  · intro condition
    obtain ⟨inGraph, feeds⟩ := condition
    obtain ⟨newRunData, returns, _⟩ := wellFormed.cleanRunData_pruned inGraph runData
    refine ⟨newRunData, returns, fun nodeName data recorded => ?_⟩
    rw [wellFormed.get?_cleanRunData inGraph returns recorded, Retained]
    refine exists_congr fun node => and_congr_right fun isNode => and_congr_right fun notRerun => not_congr ?_
    have named : nodeName = node.name := wellFormed.nodeKeys _ (OrderedMap.get?_eq_some.mp isNode)
    subst named
    exact ⟨feeds node isNode (by rw [OrderedMap.has, recorded]; rfl) notRerun, FeedsRerun.servesAbove⟩

namespace SubNodes

/-- Two agents in a row, each with a model. -/
def upstream : INode := { id := "0", name := "upstream", type := "agent" }
def upstreamModel : INode := { id := "1", name := "upstream model", type := "model" }
def startNode : INode := { id := "2", name := "start", type := "agent" }
def startModel : INode := { id := "3", name := "start model", type := "model" }

def graph : DirectedGraph where
  nodes := [upstream, upstreamModel, startNode, startModel].foldl (fun nodes node => nodes.set node.name node) ∅
  connections := [⟨upstream, startNode, .main, 0, 0⟩, ⟨upstreamModel, upstream, .aiLanguageModel, 0, 0⟩,
    ⟨startModel, startNode, .aiLanguageModel, 0, 0⟩].foldl
      (fun connections connection => connections.set (makeKey connection) connection) ∅

def ran : List (ITaskData Nat) := [⟨some ((∅ : ITaskDataConnections Nat).set .main [.full [1]])⟩]

/-- Only the agents and the model of the second one ran. -/
def withoutUpstreamModel : IRunData Nat :=
  (((∅ : IRunData Nat).set "upstream" ran).set "start" ran).set "start model" ran

theorem cleanRunData_exact : ∃ newRunData,
    cleanRunData withoutUpstreamModel graph [startNode] = .ok newRunData ∧
      ∀ nodeName data, withoutUpstreamModel.get? nodeName = some data →
        (newRunData.get? nodeName = some data ↔ graph.Retained [startNode] nodeName) := by
  refine (cleanRunData_exact_iff graph (by decide) [startNode] withoutUpstreamModel).mpr ⟨by decide, ?_⟩
  intro node _ recorded _ serves
  obtain ⟨_, connection, _, ⟨member, notMain, _⟩, rfl⟩ := serves
  have onlyStartModel : ∀ connection ∈ graph.connections.values, connection.type ≠ .main →
      withoutUpstreamModel.has connection.from.name = true →
        connection = ⟨startModel, startNode, .aiLanguageModel, 0, 0⟩ := by decide
  rw [onlyStartModel connection member notMain recorded]
  exact ⟨startNode, ⟨startNode, by simp, .refl⟩,
    .single ⟨⟨startModel, startNode, .aiLanguageModel, 0, 0⟩, by decide, by decide, rfl, rfl⟩⟩

def allRan : IRunData Nat := withoutUpstreamModel.set "upstream model" ran

/-- The data of the model that serves the first agent only is deleted. -/
theorem cleanRunData_not_exact : graph.WellFormed ∧ graph.Contains startNode ∧
    ¬ ∃ newRunData, cleanRunData allRan graph [startNode] = .ok newRunData ∧
      ∀ nodeName data, allRan.get? nodeName = some data →
        (newRunData.get? nodeName = some data ↔ graph.Retained [startNode] nodeName) := by
  refine ⟨by decide, by decide, fun isExact => ?_⟩
  obtain ⟨newRunData, returns, exact⟩ := isExact
  have deletes : ∃ newRunData, cleanRunData allRan graph [startNode] = .ok newRunData ∧
      newRunData.get? "upstream model" = none := ⟨_, rfl, by decide⟩
  obtain ⟨newRunData', returns', deleted⟩ := deletes
  obtain rfl : newRunData = newRunData' := Except.ok.inj (returns.symm.trans returns')
  have onlyStart : ∀ node, graph.Rerun [startNode] node → node = startNode := by
    intro node rerun
    obtain ⟨start, member, path⟩ := rerun
    have leaves : ∀ connection ∈ graph.connections.values, connection.from ≠ startNode := by decide
    obtain rfl := List.mem_singleton.mp member
    cases ReflTransGen.cases_head path with
    | inl isStart => exact isStart.symm
    | inr further =>
      obtain ⟨_, ⟨connection, inside, isStart, _⟩, _⟩ := further
      exact absurd isStart (leaves connection inside)
  have kept : graph.Retained [startNode] "upstream model" := by
    refine ⟨upstreamModel, by decide, fun rerun => absurd (onlyStart _ rerun) (by decide), fun feeds => ?_⟩
    obtain ⟨last, rerun, chain⟩ := feeds
    rw [onlyStart last rerun] at chain
    have targets : ∀ connection ∈ graph.connections.values, connection.type ≠ .main →
        connection.from = upstreamModel → connection.to = upstream := by decide
    have utilities : ∀ connection ∈ graph.connections.values, connection.type ≠ .main →
        connection.from ≠ upstream := by decide
    obtain ⟨next, ⟨connection, inside, notMain, leaves, rfl⟩, onwards⟩ := TransGen.head'_iff.mp chain
    rw [targets connection inside notMain leaves] at onwards
    cases ReflTransGen.cases_head onwards with
    | inl isStart => exact absurd isStart (by decide)
    | inr further =>
      obtain ⟨_, ⟨other, otherInside, otherNotMain, isUpstream, _⟩, _⟩ := further
      exact utilities other otherInside otherNotMain isUpstream
  have found := (exact "upstream model" ran rfl).mpr kept
  rw [deleted] at found
  cases found

end SubNodes

end DirectedGraph

end N8n.Core
