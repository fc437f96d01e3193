import N8n.Core.DirectedGraph
import N8n.Library.BackwardSearch

/-! # The subgraph between trigger and destination

`find-subgraph.ts` walks the data connections backwards from the destination and
keeps the branches that reach the trigger or close a cycle; then it adds the
other connections above the kept nodes.  `findSubgraph_exact_iff` says on which
graphs the result is what lies between trigger and destination.
-/

namespace N8n.Core

open BackwardSearch Relation

namespace DirectedGraph

def addWithEnds (newGraph : DirectedGraph) (connection : GraphConnection) : Except Thrown DirectedGraph :=
  (newGraph.addNodes [connection.from, connection.to]).addConnection connection

/-- `fuel` is the call stack; see `findSubgraphRecursive_adds`. -/
def findSubgraphRecursive (graph : DirectedGraph) (destinationNode trigger : INode) :
    Nat → INode → List GraphConnection → DirectedGraph → Except Thrown DirectedGraph
  | 0, _, _, _ => .error .rangeError
  | fuel + 1, current, currentBranch, newGraph =>
    -- If the current node is the chosen trigger keep this branch.
    if current = trigger then currentBranch.foldlM addWithEnds newGraph
    else
      match graph.getDirectParentConnections current with
      | .error thrown => .error thrown
      | .ok parentConnections =>
        -- If the current node has no parents, don't keep this branch.
        if parentConnections.length = 0 then .ok newGraph
        -- If the current node is the destination node again, don't keep this branch.
        else if current = destinationNode && currentBranch.any (·.to = destinationNode) then .ok newGraph
        -- If the current node was already visited, keep this branch.
        else if currentBranch.any (·.to = current) then currentBranch.foldlM addWithEnds newGraph
        else
          parentConnections.foldlM (fun newGraph parentConnection =>
            if parentConnection.type ≠ .main then .ok newGraph
            else findSubgraphRecursive graph destinationNode trigger fuel parentConnection.from
              (currentBranch ++ [parentConnection]) newGraph) newGraph

/-- Re-adds the connections above `node` that are not data connections. -/
def addUtilities (graph subgraph : DirectedGraph) (node : INode) : Except Thrown DirectedGraph :=
  match graph.getParentConnections node with
  | .error thrown => .error thrown
  | .ok parentConnections =>
    parentConnections.foldlM (fun subgraph connection =>
      if connection.type = .main then .ok subgraph else subgraph.addWithEnds connection) subgraph

def findSubgraph (graph : DirectedGraph) (destination trigger : INode) : Except Thrown DirectedGraph :=
  match graph.findSubgraphRecursive destination trigger (graph.nodes.size + 1) destination [] empty with
  | .error thrown => .error thrown
  | .ok subgraph =>
    Loop.forGrowing .rangeError (fun subgraph => subgraph.getNodes.values) graph.addUtilities
      (graph.nodes.size + 1) 0 subgraph

/-! ## Parts of a graph -/

/-- A graph copied from part of another one: its nodes are the ends of its connections. -/
structure PartOf (part graph : DirectedGraph) : Prop where
  nodes : part.nodes.Submap graph.nodes
  connections : part.connections.Submap graph.connections
  ends : ∀ connection ∈ part.connections.values,
    connection.from ∈ part.nodes.values ∧ connection.to ∈ part.nodes.values
  isEnd : ∀ node ∈ part.nodes.values, ∃ connection ∈ part.connections.values,
    node = connection.from ∨ node = connection.to

theorem empty_partOf (graph : DirectedGraph) : empty.PartOf graph where
  nodes := OrderedMap.Submap.empty _
  connections := OrderedMap.Submap.empty _
  ends := by intro connection member; cases member
  isEnd := by intro node member; cases member

variable {node : INode}

theorem contains_of_submap {part graph : DirectedGraph} (wellFormed : graph.WellFormed)
    (submap : part.nodes.Submap graph.nodes) (member : node ∈ part.nodes.values) :
    part.Contains node :=
  OrderedMap.get?_eq_some.mpr (OrderedMap.mem_entries_of_keyed
    (fun entry inside => wellFormed.nodeKeys entry (submap entry inside)) member)

theorem PartOf.addWithEnds {part graph : DirectedGraph} (partOf : part.PartOf graph)
    (wellFormed : graph.WellFormed) {connection : GraphConnection}
    (member : connection ∈ graph.connections.values) :
    ∃ next, part.addWithEnds connection = .ok next ∧ next.PartOf graph ∧
      part.nodes.values <+: next.nodes.values ∧
        ∀ other, other ∈ next.connections.values ↔ other ∈ part.connections.values ∨ other = connection := by
  have fromEntry := OrderedMap.get?_eq_some.mp (wellFormed.fromNode connection member)
  have toEntry := OrderedMap.get?_eq_some.mp (wellFormed.toNode connection member)
  have withFrom := partOf.nodes.set fromEntry
  have withTo := withFrom.set toEntry
  have connectionEntry := wellFormed.mem_entries member
  have nodes : ∀ node, node ∈ (part.addNodes [connection.from, connection.to]).nodes.values ↔
      (node ∈ part.nodes.values ∨ node = connection.from) ∨ node = connection.to := by
    intro node
    show node ∈ ((part.nodes.set connection.from.name connection.from).set
      connection.to.name connection.to).values ↔ _
    rw [withFrom.mem_values_set toEntry, partOf.nodes.mem_values_set fromEntry]
  have connections : ∀ other, other ∈ (part.connections.set (makeKey connection) connection).values ↔
      other ∈ part.connections.values ∨ other = connection := fun other =>
    partOf.connections.mem_values_set connectionEntry
  refine ⟨_, addConnection_of_contains ?_ ?_, ⟨withTo, partOf.connections.set connectionEntry, ?_, ?_⟩,
    ?_, connections⟩
  · exact contains_of_submap wellFormed withTo ((nodes _).mpr (.inl (.inr rfl)))
  · exact contains_of_submap wellFormed withTo ((nodes _).mpr (.inr rfl))
  · intro other inside
    cases (connections other).mp inside with
    | inl old =>
      obtain ⟨fromInside, toInside⟩ := partOf.ends other old
      exact ⟨(nodes _).mpr (.inl (.inl fromInside)), (nodes _).mpr (.inl (.inl toInside))⟩
    | inr new =>
      obtain rfl := new
      exact ⟨(nodes _).mpr (.inl (.inr rfl)), (nodes _).mpr (.inr rfl)⟩
  · intro node inside
    cases (nodes node).mp inside with
    | inl inside =>
      cases inside with
      | inl old =>
        obtain ⟨other, otherInside, isEnd⟩ := partOf.isEnd node old
        exact ⟨other, (connections other).mpr (.inl otherInside), isEnd⟩
      | inr isFrom => exact ⟨connection, (connections _).mpr (.inr rfl), .inl isFrom⟩
    | inr isTo => exact ⟨connection, (connections _).mpr (.inr rfl), .inr isTo⟩
  · exact (partOf.nodes.values_prefix_set fromEntry).trans (withFrom.values_prefix_set toEntry)

theorem PartOf.addAll {part graph : DirectedGraph} (partOf : part.PartOf graph)
    (wellFormed : graph.WellFormed) {connections : List GraphConnection}
    (members : ∀ connection ∈ connections, connection ∈ graph.connections.values)
    (keep : GraphConnection → Bool) :
    ∃ next, connections.foldlM (fun part connection =>
        if keep connection then part.addWithEnds connection else .ok part) part = .ok next ∧
      (next.PartOf graph ∧ part.nodes.values <+: next.nodes.values) ∧
        ∀ other, other ∈ next.connections.values ↔ other ∈ part.connections.values ∨
          ∃ connection ∈ connections, keep connection = true ∧ other = connection := by
  refine Loop.foldlM_collects
    (fun next : DirectedGraph => next.PartOf graph ∧ part.nodes.values <+: next.nodes.values)
    (fun next other => other ∈ next.connections.values)
    (fun connection other => keep connection = true ∧ other = connection) ?_
    ⟨partOf, List.prefix_refl _⟩
  intro connection inside current kept
  by_cases isKept : keep connection = true
  · obtain ⟨next, returns, nextPart, grows, added⟩ :=
      kept.1.addWithEnds wellFormed (members connection inside)
    refine ⟨next, by rw [if_pos isKept]; exact returns, ⟨nextPart, kept.2.trans grows⟩, fun other => ?_⟩
    rw [added, isKept]
    simp
  · exact ⟨current, by rw [if_neg isKept], kept, fun other => by simp [isKept]⟩

/-! ## The search -/

def MainConnection (graph : DirectedGraph) (connection : GraphConnection) : Prop :=
  connection ∈ graph.connections.values ∧ connection.type = .main

theorem Contains.parents {graph : DirectedGraph} (contains : graph.Contains node) :
    graph.getDirectParentConnections node =
      .ok (graph.connections.values.filter fun connection => connection.to = node) :=
  if_pos contains

section Search

variable {graph : DirectedGraph} {destination trigger : INode}

/-- What the call keeps, as an addition to a graph under construction. -/
def AddsKept (graph : DirectedGraph) (destination trigger current : INode)
    (currentBranch : List GraphConnection) (newGraph next : DirectedGraph) : Prop :=
  next.PartOf graph ∧ ∀ connection, connection ∈ next.connections.values ↔
    connection ∈ newGraph.connections.values ∨
      Keeps graph.MainConnection (·.from) (·.to) trigger destination current currentBranch connection

theorem PartOf.keepBranch {newGraph : DirectedGraph} (partOf : newGraph.PartOf graph)
    (wellFormed : graph.WellFormed) {current : INode} {currentBranch : List GraphConnection}
    (inBranch : ∀ connection ∈ currentBranch, connection ∈ graph.connections.values)
    (keeps_iff : ∀ connection, Keeps graph.MainConnection (·.from) (·.to) trigger destination current
      currentBranch connection ↔ connection ∈ currentBranch) :
    ∃ next, currentBranch.foldlM DirectedGraph.addWithEnds newGraph = .ok next ∧
      AddsKept graph destination trigger current currentBranch newGraph next := by
  obtain ⟨next, returns, nextPart, added⟩ := partOf.addAll wellFormed inBranch fun _ => true
  refine ⟨next, by simpa using returns, nextPart.1, fun connection => ?_⟩
  simp [added, keeps_iff]

def SearchAdds (graph : DirectedGraph) (destination trigger : INode) (fuel : Nat) : Prop :=
  ∀ current currentBranch newGraph, newGraph.PartOf graph → graph.Contains current →
    (∀ connection ∈ currentBranch, connection ∈ graph.connections.values) →
    (Traversal.unmarked graph.nodes.values (currentBranch.map (·.to))).length < fuel →
      ∃ next, graph.findSubgraphRecursive destination trigger fuel current currentBranch newGraph =
          .ok next ∧ AddsKept graph destination trigger current currentBranch newGraph next

theorem SearchAdds.turn (wellFormed : graph.WellFormed) {fuel : Nat}
    (search : SearchAdds graph destination trigger fuel) {current : INode} (contains : graph.Contains current)
    {currentBranch : List GraphConnection}
    (inBranch : ∀ connection ∈ currentBranch, connection ∈ graph.connections.values)
    (enough : (Traversal.unmarked graph.nodes.values (currentBranch.map (·.to))).length < fuel + 1)
    (notPassed : current ∉ currentBranch.map (·.to)) :
    ∀ parent ∈ graph.connections.values.filter (fun connection => connection.to = current),
      ∀ state : DirectedGraph, state.PartOf graph → ∃ next, (if parent.type ≠ .main then .ok state
        else findSubgraphRecursive graph destination trigger fuel parent.from
          (currentBranch ++ [parent]) state) = .ok next ∧ next.PartOf graph ∧
        ∀ other, other ∈ next.connections.values ↔ other ∈ state.connections.values ∨
          parent.type = .main ∧ Keeps graph.MainConnection (·.from) (·.to) trigger destination
            parent.from (currentBranch ++ [parent]) other := by
  intro parent inside state statePart
  obtain ⟨member, leads⟩ := List.mem_filter.mp inside
  have leads : parent.to = current := of_decide_eq_true leads
  by_cases isMain : parent.type = .main
  · have fewer := Traversal.length_unmarked_lt (wellFormed.contains_iff.mp contains) notPassed
    have branch_tos : (currentBranch ++ [parent]).map (·.to) = currentBranch.map (·.to) ++ [current] := by
      simp [leads]
    have inLonger : ∀ connection ∈ currentBranch ++ [parent],
        connection ∈ graph.connections.values := by
      intro connection inside
      cases List.mem_append.mp inside with
      | inl old => exact inBranch connection old
      | inr isParent => exact List.mem_singleton.mp isParent ▸ member
    obtain ⟨next, returns, nextPart, added⟩ := search parent.from
      (currentBranch ++ [parent]) state statePart (wellFormed.fromNode parent member) inLonger
      (by rw [branch_tos]; omega)
    exact ⟨next, by simpa [isMain] using returns, nextPart, fun other => by simp [added, isMain]⟩
  · exact ⟨state, by simp [isMain], statePart, fun other => by simp [isMain]⟩

/-- The search is the backward search over the data connections. -/
theorem findSubgraphRecursive_adds (wellFormed : graph.WellFormed) (fuel : Nat) :
    SearchAdds graph destination trigger fuel := by
  induction fuel with
  | zero => intro _ _ _ _ _ _ enough; omega
  | succ fuel ih =>
    intro current currentBranch newGraph partOf contains inBranch enough
    have passed_iff : ∀ node : INode, currentBranch.any (·.to = node) = true ↔
        node ∈ currentBranch.map (·.to) := by simp
    rw [findSubgraphRecursive, contains.parents]
    dsimp only
    by_cases isTrigger : current = trigger
    · rw [if_pos isTrigger]
      refine partOf.keepBranch wellFormed inBranch fun connection => ⟨fun keeps => ?_, fun member => ?_⟩
      · cases keeps with
        | reached member => exact member
        | closed _ notStart _ _ => exact absurd isTrigger notStart
        | parent notStart _ _ _ _ => exact absurd isTrigger notStart
      · exact isTrigger ▸ .reached member
    rw [if_neg isTrigger]
    split
    · rename_i noParents
      have noParents := List.length_eq_zero_iff.mp noParents
      refine ⟨newGraph, rfl, partOf, fun connection => (or_iff_left fun keeps => ?_).symm⟩
      have isParent : ∀ parent ∈ graph.connections.values, parent.to ≠ current := by
        simpa using noParents
      cases keeps with
      | reached => exact isTrigger rfl
      | closed _ _ _ passed =>
        obtain ⟨parent, member, leads⟩ := List.mem_map.mp passed
        exact isParent parent (inBranch parent member) leads
      | parent _ _ isEdge leads _ => exact isParent _ isEdge.1 leads
    split
    · rename_i destinationAgain
      simp only [Bool.and_eq_true, decide_eq_true_eq, passed_iff] at destinationAgain
      obtain ⟨isDestination, passed⟩ := destinationAgain
      refine ⟨newGraph, rfl, partOf, fun connection => (or_iff_left fun keeps => ?_).symm⟩
      cases keeps with
      | reached => exact isTrigger rfl
      | closed _ _ notGoal _ => exact notGoal isDestination
      | parent _ notPassed _ _ _ => exact notPassed (isDestination ▸ passed)
    split
    · rename_i notDestinationAgain passed
      simp only [Bool.and_eq_true, decide_eq_true_eq, passed_iff] at notDestinationAgain passed
      have notDestination : current ≠ destination := fun isDestination =>
        notDestinationAgain ⟨isDestination, isDestination ▸ passed⟩
      refine partOf.keepBranch wellFormed inBranch fun connection => ⟨fun keeps => ?_, fun member => ?_⟩
      · cases keeps with
        | reached member => exact member
        | closed member _ _ _ => exact member
        | parent _ notPassed _ _ _ => exact absurd passed notPassed
      · exact .closed member isTrigger notDestination passed
    · rename_i notPassed
      rw [passed_iff] at notPassed
      have turn := SearchAdds.turn wellFormed ih contains inBranch enough notPassed
      obtain ⟨next, returns, nextPart, added⟩ := Loop.foldlM_collects
        (fun state : DirectedGraph => state.PartOf graph)
        (fun state other => other ∈ state.connections.values) _ turn partOf
      refine ⟨next, returns, nextPart, fun connection => ?_⟩
      rw [added]
      refine or_congr_right ⟨fun found => ?_, fun keeps => ?_⟩
      · obtain ⟨parent, inside, isMain, keeps⟩ := found
        obtain ⟨member, leads⟩ := List.mem_filter.mp inside
        exact .parent isTrigger notPassed ⟨member, isMain⟩ (of_decide_eq_true leads) keeps
      · cases keeps with
        | reached => exact absurd rfl isTrigger
        | closed _ _ _ passed => exact absurd passed notPassed
        | parent _ _ isEdge leads keeps =>
          exact ⟨_, List.mem_filter.mpr ⟨isEdge.1, decide_eq_true leads⟩, isEdge.2, keeps⟩

end Search

/-! ## The connections above a node -/

theorem WellFormed.getParentConnections_spec {graph : DirectedGraph} (wellFormed : graph.WellFormed)
    (contains : graph.Contains node) :
    ∃ parentConnections, graph.getParentConnections node = .ok parentConnections ∧
      ∀ connection, connection ∈ parentConnections ↔ connection ∈ graph.connections.values ∧
        ReflTransGen graph.LeadsTo connection.to node := by
  have safe : Traversal.Safe graph.getDirectParentConnections
      (fun node => graph.connections.values.filter fun connection => connection.to = node) (·.from)
      graph.connections.values graph.Contains := by
    refine ⟨fun node contains => contains.parents, fun _ _ arc inside => (List.mem_filter.mp inside).1, ?_⟩
    exact fun _ _ arc inside => wellFormed.fromNode arc (List.mem_filter.mp inside).1
  have enough : graph.connections.values.length < graph.connections.size + 1 := by simp
  obtain ⟨marked, returns, marks⟩ := Traversal.markFrom_spec .rangeError safe contains enough
  refine ⟨marked, returns, fun connection => ?_⟩
  have backwards : ∀ u v, Traversal.Leads
      (fun node => graph.connections.values.filter fun connection => connection.to = node) (·.from) u v ↔
        Function.swap graph.LeadsTo u v := by
    intro u v
    refine ⟨fun leads => ?_, fun leads => ?_⟩
    · obtain ⟨arc, inside, isSource⟩ := leads
      obtain ⟨member, isTarget⟩ := List.mem_filter.mp inside
      exact ⟨arc, member, isSource, of_decide_eq_true isTarget⟩
    · obtain ⟨arc, member, isSource, isTarget⟩ := leads
      exact ⟨arc, List.mem_filter.mpr ⟨member, decide_eq_true isTarget⟩, isSource⟩
  rw [marks, Traversal.ReachableArc, ← reflTransGen_swap]
  refine ⟨fun reachable => ?_, fun above => ?_⟩
  · obtain ⟨last, path, inside⟩ := reachable
    obtain ⟨member, isTarget⟩ := List.mem_filter.mp inside
    rw [of_decide_eq_true isTarget]
    exact ⟨member, ReflTransGen.mono (fun u v => (backwards u v).mp) _ _ path⟩
  · exact ⟨connection.to, ReflTransGen.mono (fun u v => (backwards u v).mpr) _ _ above.2,
      List.mem_filter.mpr ⟨above.1, decide_eq_true rfl⟩⟩

/-- A connection that is not a data connection and leads, over whatever connections, to `node`. -/
def UtilityAbove (graph : DirectedGraph) (node : INode) (connection : GraphConnection) : Prop :=
  connection ∈ graph.connections.values ∧ connection.type ≠ .main ∧
    ReflTransGen graph.LeadsTo connection.to node

theorem PartOf.addUtilities {part graph : DirectedGraph} (partOf : part.PartOf graph) (wellFormed : graph.WellFormed)
    (inside : node ∈ part.nodes.values) :
    ∃ next, graph.addUtilities part node = .ok next ∧ next.PartOf graph ∧
      part.nodes.values <+: next.nodes.values ∧
        ∀ connection, connection ∈ next.connections.values ↔
          connection ∈ part.connections.values ∨ graph.UtilityAbove node connection := by
  have contains : graph.Contains node := wellFormed.contains_iff.mpr (partOf.nodes.values inside)
  obtain ⟨parentConnections, found, above⟩ := wellFormed.getParentConnections_spec contains
  obtain ⟨next, returns, ⟨nextPart, grows⟩, added⟩ := partOf.addAll wellFormed
    (fun connection member => ((above connection).mp member).1)
    (fun connection => decide (connection.type ≠ .main))
  refine ⟨next, ?_, nextPart, grows, fun connection => ?_⟩
  · rw [DirectedGraph.addUtilities, found, ← returns]
    simp only [decide_eq_true_eq, ite_not]
  · rw [added]
    refine or_congr_right ⟨fun listed => ?_, fun utility => ?_⟩
    · obtain ⟨other, member, notMain, rfl⟩ := listed
      obtain ⟨original, leads⟩ := (above connection).mp member
      exact ⟨original, of_decide_eq_true notMain, leads⟩
    · obtain ⟨original, notMain, leads⟩ := utility
      exact ⟨connection, (above connection).mpr ⟨original, leads⟩, decide_eq_true notMain, rfl⟩

/-! ## The whole subgraph -/

section Subgraph

variable (graph : DirectedGraph) (destination trigger : INode)

def Kept (connection : GraphConnection) : Prop :=
  Keeps graph.MainConnection (·.from) (·.to) trigger destination destination [] connection

/-- What `findSubgraph` returns: the kept data connections and the utilities above their ends. -/
structure IsSubgraph (subgraph : DirectedGraph) : Prop where
  partOf : subgraph.PartOf graph
  connections : ∀ connection, connection ∈ subgraph.connections.values ↔
    graph.Kept destination trigger connection ∨
      ∃ kept, graph.Kept destination trigger kept ∧
        (graph.UtilityAbove kept.from connection ∨ graph.UtilityAbove kept.to connection)

variable {graph destination trigger}

theorem WellFormed.findSubgraph_returns (wellFormed : graph.WellFormed)
    (contains : graph.Contains destination) :
    ∃ subgraph, graph.findSubgraph destination trigger = .ok subgraph ∧
      IsSubgraph graph destination trigger subgraph := by
  have enough : (Traversal.unmarked graph.nodes.values ([] : List INode)).length < graph.nodes.size + 1 := by
    rw [← OrderedMap.length_values]
    exact Nat.lt_succ_of_le (List.length_filter_le _ _)
  obtain ⟨searched, search, searchedPart, kept⟩ :=
    @findSubgraphRecursive_adds graph destination trigger wellFormed _ destination [] empty
      (empty_partOf graph) contains (by simp) enough
  have kept : ∀ connection, connection ∈ searched.connections.values ↔
      graph.Kept destination trigger connection := by
    intro connection
    rw [kept]
    exact or_iff_right (by simp [empty])
  -- what the loop adds lies above the nodes the search has found
  let invariant : DirectedGraph → Prop := fun state => state.PartOf graph ∧
    ∀ node ∈ state.nodes.values, ∃ found ∈ searched.nodes.values, ReflTransGen graph.LeadsTo node found
  have bounded : ∀ state, invariant state → state.getNodes.values.length ≤ graph.nodes.size := by
    intro state kept
    rw [getNodes, OrderedMap.length_values]
    exact kept.1.nodes.size_le
  have turn : ∀ state, invariant state → ∀ node ∈ state.getNodes.values, ∃ next,
      graph.addUtilities state node = .ok next ∧ invariant next ∧
        state.getNodes.values <+: next.getNodes.values ∧
          ∀ connection, connection ∈ next.connections.values ↔
            connection ∈ state.connections.values ∨ graph.UtilityAbove node connection := by
    intro state kept node inside
    obtain ⟨statePart, leads⟩ := kept
    obtain ⟨next, returns, nextPart, grows, added⟩ := statePart.addUtilities wellFormed inside
    refine ⟨next, returns, ⟨nextPart, fun other otherInside => ?_⟩, grows, added⟩
    obtain ⟨connection, member, isEnd⟩ := nextPart.isEnd other otherInside
    cases (added connection).mp member with
    | inl old =>
      obtain ⟨fromInside, toInside⟩ := statePart.ends connection old
      cases isEnd with
      | inl isFrom => exact isFrom ▸ leads _ fromInside
      | inr isTo => exact isTo ▸ leads _ toInside
    | inr utility =>
      obtain ⟨original, _, above⟩ := utility
      obtain ⟨found, foundInside, onwards⟩ := leads node inside
      have toLeads := above.trans onwards
      cases isEnd with
      | inl isFrom =>
        exact ⟨found, foundInside, isFrom ▸ .head ⟨connection, original, rfl, rfl⟩ toLeads⟩
      | inr isTo => exact ⟨found, foundInside, isTo ▸ toLeads⟩
  have start : invariant searched := ⟨searchedPart, fun node inside => ⟨node, inside, .refl⟩⟩
  obtain ⟨subgraph, loop, ⟨subgraphPart, leads⟩, grows, added⟩ := Loop.forGrowing_collects .rangeError
    invariant (fun state connection => connection ∈ state.connections.values) _ bounded turn start
    (Nat.zero_le _) (Nat.lt_succ_self graph.nodes.size)
  refine ⟨subgraph, by rw [findSubgraph, search]; exact loop, subgraphPart, fun connection => ?_⟩
  rw [added, kept]
  refine or_congr_right ⟨fun above => ?_, fun above => ?_⟩
  · obtain ⟨node, inside, original, notMain, onwards⟩ := above
    obtain ⟨found, foundInside, further⟩ := leads node (List.mem_of_mem_drop inside)
    obtain ⟨keptConnection, member, isEnd⟩ := searchedPart.isEnd found foundInside
    refine ⟨keptConnection, (kept _).mp member, ?_⟩
    cases isEnd with
    | inl isFrom => exact .inl ⟨original, notMain, isFrom ▸ onwards.trans further⟩
    | inr isTo => exact .inr ⟨original, notMain, isTo ▸ onwards.trans further⟩
  · obtain ⟨keptConnection, isKept, above⟩ := above
    obtain ⟨fromInside, toInside⟩ := searchedPart.ends keptConnection ((kept _).mpr isKept)
    cases above with
    | inl aboveFrom => exact ⟨_, grows.subset fromInside, aboveFrom⟩
    | inr aboveTo => exact ⟨_, grows.subset toInside, aboveTo⟩

end Subgraph

/-! ## When the subgraph is exact -/

section Exact

variable (graph : DirectedGraph) (destination trigger : INode)

/-- A data connection on a walk from trigger to destination that visits the destination only at its
end and the trigger only at its start. -/
def Between (connection : GraphConnection) : Prop :=
  OnWalk graph.MainConnection (·.from) (·.to) trigger destination connection

def NodeBetween (node : INode) : Prop :=
  ∃ connection, graph.Between destination trigger connection ∧ (node = connection.from ∨ node = connection.to)

/-- A connection that is not a data connection leads from `u` to `v`. -/
def UtilityStep (u v : INode) : Prop :=
  ∃ connection ∈ graph.connections.values, connection.type ≠ .main ∧ connection.from = u ∧ connection.to = v

def MainStep (u v : INode) : Prop :=
  ∃ connection, graph.MainConnection connection ∧ connection.from = u ∧ connection.to = v

def InnerStep : INode → INode → Prop :=
  Step graph.MainConnection (·.from) (·.to) trigger destination

structure ExactSubgraph (subgraph : DirectedGraph) : Prop where
  main : ∀ connection, subgraph.MainConnection connection ↔ graph.Between destination trigger connection
  others : ∀ node ∈ subgraph.nodes.values, graph.NodeBetween destination trigger node ∨
    ∃ between, graph.NodeBetween destination trigger between ∧ TransGen graph.UtilityStep node between
  reached : ∀ connection, subgraph.MainConnection connection →
    ReflTransGen graph.MainStep trigger connection.from ∧ ReflTransGen graph.MainStep trigger connection.to

/-- Every cycle that leads to the destination is reached from the trigger. -/
def CyclesReached : Prop :=
  ∀ node, TransGen (graph.InnerStep destination trigger) node node →
    ReflTransGen (graph.InnerStep destination trigger) node destination →
      ReflTransGen (graph.InnerStep destination trigger) trigger node

/-- Utilities above a node on a walk are utilities of a node on a walk. -/
def UtilitiesDirect : Prop :=
  ∀ connection ∈ graph.connections.values, connection.type ≠ .main →
    ∀ between, graph.NodeBetween destination trigger between →
      ReflTransGen graph.LeadsTo connection.to between →
        graph.NodeBetween destination trigger connection.to ∨
          ∃ other, graph.NodeBetween destination trigger other ∧ TransGen graph.UtilityStep connection.to other

variable {graph destination trigger}

theorem WellFormed.kept_iff_between_iff (wellFormed : graph.WellFormed) (distinct : trigger ≠ destination) :
    (∀ connection, graph.Kept destination trigger connection ↔ graph.Between destination trigger connection) ↔
      graph.CyclesReached destination trigger :=
  keeps_iff_onWalk_iff
    (fun connection inner => wellFormed.contains_iff.mp (wellFormed.toNode connection inner.isEdge.1))
    (fun connection inner => wellFormed.contains_iff.mp (wellFormed.fromNode connection inner.isEdge.1))
    distinct

theorem Between.reached {connection : GraphConnection} (between : graph.Between destination trigger connection) :
    ReflTransGen graph.MainStep trigger connection.from ∧ ReflTransGen graph.MainStep trigger connection.to := by
  obtain ⟨inner, reached, _⟩ := onWalk_iff.mp between
  have weaken : ∀ u v, Step graph.MainConnection (·.from) (·.to) trigger destination u v →
      graph.MainStep u v := by
    intro u v step
    obtain ⟨item, isInner, isFrom, isTo⟩ := step
    exact ⟨item, isInner.isEdge, isFrom, isTo⟩
  have toFrom := ReflTransGen.mono weaken _ _ reached
  exact ⟨toFrom, toFrom.tail ⟨connection, inner.isEdge, rfl, rfl⟩⟩

variable {subgraph : DirectedGraph}

theorem IsSubgraph.mainConnection_iff (isSubgraph : IsSubgraph graph destination trigger subgraph)
    (distinct : trigger ≠ destination) (connection : GraphConnection) :
    subgraph.MainConnection connection ↔ graph.Kept destination trigger connection := by
  constructor
  · intro isMain
    cases (isSubgraph.connections connection).mp isMain.1 with
    | inl kept => exact kept
    | inr utility =>
      obtain ⟨kept, _, above⟩ := utility
      cases above with
      | inl aboveFrom => exact absurd isMain.2 aboveFrom.2.1
      | inr aboveTo => exact absurd isMain.2 aboveTo.2.1
  · intro kept
    have sound := Branch.nil.sound distinct kept
    exact ⟨(isSubgraph.connections connection).mpr (.inl kept), sound.1.isEdge.2⟩

theorem IsSubgraph.mem_of_utilityAbove (isSubgraph : IsSubgraph graph destination trigger subgraph)
    {kept connection : GraphConnection} (isKept : graph.Kept destination trigger kept) {node : INode}
    (isEnd : node = kept.from ∨ node = kept.to) (above : graph.UtilityAbove node connection) :
    connection ∈ subgraph.connections.values := by
  refine (isSubgraph.connections connection).mpr (.inr ⟨kept, isKept, ?_⟩)
  cases isEnd with
  | inl isFrom => exact .inl (isFrom ▸ above)
  | inr isTo => exact .inr (isTo ▸ above)

theorem IsSubgraph.exact (isSubgraph : IsSubgraph graph destination trigger subgraph)
    (distinct : trigger ≠ destination)
    (kept_iff : ∀ connection, graph.Kept destination trigger connection ↔
      graph.Between destination trigger connection) (utilities : graph.UtilitiesDirect destination trigger) :
    ExactSubgraph graph destination trigger subgraph := by
  have main : ∀ connection, subgraph.MainConnection connection ↔
      graph.Between destination trigger connection := fun connection =>
    (isSubgraph.mainConnection_iff distinct connection).trans (kept_iff connection)
  refine ⟨main, fun node inside => ?_, fun connection isMain => ((main connection).mp isMain).reached⟩
  obtain ⟨connection, member, isEnd⟩ := isSubgraph.partOf.isEnd node inside
  cases (isSubgraph.connections connection).mp member with
  | inl kept => exact .inl ⟨connection, (kept_iff _).mp kept, isEnd⟩
  | inr utility =>
    obtain ⟨kept, isKept, above⟩ := utility
    have isBetween := (kept_iff kept).mp isKept
    obtain ⟨between, betweenNode, original, notMain, leads⟩ : ∃ between,
        graph.NodeBetween destination trigger between ∧ graph.UtilityAbove between connection := by
      cases above with
      | inl aboveFrom => exact ⟨_, ⟨kept, isBetween, .inl rfl⟩, aboveFrom⟩
      | inr aboveTo => exact ⟨_, ⟨kept, isBetween, .inr rfl⟩, aboveTo⟩
    have step : graph.UtilityStep connection.from connection.to := ⟨connection, original, notMain, rfl, rfl⟩
    have direct := utilities connection original notMain between betweenNode leads
    cases isEnd with
    | inl isFrom =>
      obtain rfl := isFrom
      cases direct with
      | inl toBetween => exact .inr ⟨_, toBetween, .single step⟩
      | inr chain =>
        obtain ⟨other, otherBetween, further⟩ := chain
        exact .inr ⟨other, otherBetween, .head step further⟩
    | inr isTo => exact isTo ▸ direct

/-- The subgraph is exact if and only if the trigger reaches every cycle that leads to the
destination, and utilities are attached to nodes on the walks. -/
theorem findSubgraph_exact_iff (graph : DirectedGraph) (built : graph.Built) (destination trigger : INode)
    (contains : graph.Contains destination) (distinct : trigger ≠ destination) :
    (∃ subgraph, graph.findSubgraph destination trigger = .ok subgraph ∧
        ExactSubgraph graph destination trigger subgraph) ↔
      graph.CyclesReached destination trigger ∧ graph.UtilitiesDirect destination trigger := by
  have wellFormed := built.wellFormed
  obtain ⟨subgraph, returns, isSubgraph⟩ :=
    @WellFormed.findSubgraph_returns graph destination trigger wellFormed contains
  constructor
  · intro returnsExact
    obtain ⟨subgraph', returns', exact⟩ := returnsExact
    obtain rfl : subgraph = subgraph' := Except.ok.inj (returns.symm.trans returns')
    have kept_iff : ∀ connection, graph.Kept destination trigger connection ↔
        graph.Between destination trigger connection := fun connection =>
      (isSubgraph.mainConnection_iff distinct connection).symm.trans (exact.main connection)
    refine ⟨(wellFormed.kept_iff_between_iff distinct).mp kept_iff, ?_⟩
    intro connection member notMain between betweenNode leads
    obtain ⟨kept, isBetween, isEnd⟩ := betweenNode
    have inside := isSubgraph.mem_of_utilityAbove ((kept_iff kept).mpr isBetween) isEnd
      ⟨member, notMain, leads⟩
    exact exact.others connection.to (isSubgraph.partOf.ends connection inside).2
  · intro conditions
    have kept_iff := (wellFormed.kept_iff_between_iff distinct).mpr conditions.1
    exact ⟨subgraph, returns, isSubgraph.exact distinct kept_iff conditions.2⟩

end Exact

namespace AgentWithModel

/-- `trigger → agent → destination`, where the agent uses a model. -/
def trigger : INode := { id := "0", name := "trigger", type := "trigger" }
def agent : INode := { id := "1", name := "agent", type := "agent" }
def destination : INode := { id := "2", name := "destination", type := "set" }
def model : INode := { id := "3", name := "model", type := "model" }

def graph : DirectedGraph where
  nodes := [trigger, agent, destination, model].foldl (fun nodes node => nodes.set node.name node) ∅
  connections := [⟨trigger, agent, .main, 0, 0⟩, ⟨agent, destination, .main, 0, 0⟩,
    ⟨model, agent, .aiLanguageModel, 0, 0⟩].foldl
      (fun connections connection => connections.set (makeKey connection) connection) ∅

theorem agent_between : graph.NodeBetween destination trigger agent := by
  refine ⟨⟨trigger, agent, .main, 0, 0⟩, ⟨[⟨trigger, agent, .main, 0, 0⟩,
    ⟨agent, destination, .main, 0, 0⟩], ?_, by decide, by decide⟩, .inr rfl⟩
  have first : graph.MainConnection ⟨trigger, agent, .main, 0, 0⟩ := by
    constructor <;> decide
  have second : graph.MainConnection ⟨agent, destination, .main, 0, 0⟩ := by
    constructor <;> decide
  exact .cons first (.cons second (.nil destination))

theorem findSubgraph_exact : ∃ subgraph, graph.findSubgraph destination trigger = .ok subgraph ∧
    ExactSubgraph graph destination trigger subgraph := by
  refine (findSubgraph_exact_iff graph (built_iff_wellFormed.mpr (by decide)) destination trigger
    (by decide) (by decide)).mpr ⟨fun node cycle => ?_, fun connection member notMain _ _ _ => ?_⟩
  · -- data connections lead to later nodes
    have downwards : ∀ connection ∈ graph.connections.values, connection.type = .main →
        graph.nodes.values.idxOf connection.from < graph.nodes.values.idxOf connection.to := by decide
    have descends : ∀ last, TransGen (graph.InnerStep destination trigger) node last →
        graph.nodes.values.idxOf node < graph.nodes.values.idxOf last := by
      intro last path
      induction path with
      | single step =>
        obtain ⟨connection, inner, rfl, rfl⟩ := step
        exact downwards connection inner.isEdge.1 inner.isEdge.2
      | tail _ step ih =>
        obtain ⟨connection, inner, rfl, rfl⟩ := step
        exact Nat.lt_trans ih (downwards connection inner.isEdge.1 inner.isEdge.2)
    have := descends node cycle
    omega
  · have onlyModel : ∀ connection ∈ graph.connections.values, connection.type ≠ .main →
        connection.to = agent := by decide
    exact .inl (onlyModel connection member notMain ▸ agent_between)

end AgentWithModel

namespace UnreachedCycle

/-- Two nodes of a cycle that leads to the destination; the trigger does not reach them. -/
def trigger : INode := { id := "0", name := "trigger", type := "trigger" }
def destination : INode := { id := "1", name := "destination", type := "set" }
def first : INode := { id := "2", name := "first", type := "set" }
def second : INode := { id := "3", name := "second", type := "set" }

def graph : DirectedGraph where
  nodes := [trigger, destination, first, second].foldl (fun nodes node => nodes.set node.name node) ∅
  connections := [⟨trigger, destination, .main, 0, 0⟩, ⟨first, second, .main, 0, 0⟩,
    ⟨second, first, .main, 0, 0⟩, ⟨first, destination, .main, 0, 0⟩].foldl
      (fun connections connection => connections.set (makeKey connection) connection) ∅

theorem findSubgraph_not_exact : graph.Built ∧ graph.Contains trigger ∧ graph.Contains destination ∧
    trigger ≠ destination ∧ ¬ ∃ subgraph, graph.findSubgraph destination trigger = .ok subgraph ∧
      ExactSubgraph graph destination trigger subgraph := by
  refine ⟨built_iff_wellFormed.mpr (by decide), by decide, by decide, by decide, fun isExact => ?_⟩
  obtain ⟨subgraph, returns, exact⟩ := isExact
  have inside : ∃ subgraph, graph.findSubgraph destination trigger = .ok subgraph ∧
      (⟨first, destination, .main, 0, 0⟩ : GraphConnection) ∈ subgraph.connections.values :=
    ⟨_, rfl, by decide⟩
  obtain ⟨subgraph', returns', member⟩ := inside
  obtain rfl : subgraph = subgraph' := Except.ok.inj (returns.symm.trans returns')
  have reached := (exact.reached _ ⟨member, rfl⟩).1
  have closed : ∀ connection ∈ graph.connections.values, connection.from ∈ [trigger, destination] →
      connection.to ∈ [trigger, destination] := by decide
  have onlyThese : ∀ node, ReflTransGen graph.MainStep trigger node → node ∈ [trigger, destination] := by
    intro node path
    induction path with
    | refl => decide
    | tail _ step ih =>
      obtain ⟨connection, isMain, rfl, rfl⟩ := step
      exact closed connection isMain.1 ih
  exact absurd (onlyThese first reached) (by decide)

end UnreachedCycle

end DirectedGraph

end N8n.Core
