import N8n.Core.ConnectionKeys
import N8n.Core.RunNode
import N8n.Library.Elimination

/-! # Filtering out disabled nodes

`filter-disabled-nodes.ts` removes the disabled nodes one at a time, and every
removal joins the parents of the node to its children.  The invariant of the
loop: the data connections of the graph are the routes of the original graph
whose inner nodes are among the nodes removed so far.
-/

namespace N8n.Core

open Elimination

namespace DirectedGraph

/-- The `skipConnectionFn` of `filterDisabledNodes`. -/
def skipNonMain (connection : GraphConnection) : Bool := connection.type ≠ .main

/-- The connections that removing `node` creates. -/
def bypassOf (graph : DirectedGraph) (node : INode) : List GraphConnection :=
  bypassConnections skipNonMain
    (graph.connections.values.filter fun connection => connection.to = node)
    (graph.connections.values.filter fun connection => connection.from = node)

def afterRemoval (graph : DirectedGraph) (node : INode) : DirectedGraph where
  nodes := graph.nodes.erase node.name
  connections := (graph.bypassOf node).foldl
    (fun connections newConnection => connections.set (makeKey newConnection) newConnection)
    (graph.dropConnectionsOf node)

variable {graph : DirectedGraph} {node : INode}

/-- A data connection of the graph, by its end points and indexes. -/
def MainEdge (graph : DirectedGraph) (source : INode) (outputIndex inputIndex : Nat) (target : INode) :
    Prop :=
  (⟨source, target, .main, outputIndex, inputIndex⟩ : GraphConnection) ∈ graph.connections.values

variable {connection : GraphConnection}

theorem mainEdge_of_mem (member : connection ∈ graph.connections.values) (isMain : connection.type = .main) :
    graph.MainEdge connection.from connection.outputIndex connection.inputIndex connection.to := by
  obtain ⟨source, target, type, outputIndex, inputIndex⟩ := connection
  cases isMain
  exact member

theorem mem_bypassOf :
    connection ∈ graph.bypassOf node ↔ connection.type = .main ∧
      (∃ inputIndex, graph.MainEdge connection.from connection.outputIndex inputIndex node) ∧
        ∃ outputIndex, graph.MainEdge node outputIndex connection.inputIndex connection.to := by
  simp only [bypassOf, bypassConnections, List.mem_flatMap, List.mem_filter, decide_eq_true_eq, skipNonMain]
  constructor
  · rintro ⟨incoming, ⟨incomingMember, rfl⟩, inside⟩
    by_cases incomingMain : incoming.type = .main
    · rw [if_neg (by simp [incomingMain]), List.mem_flatMap] at inside
      obtain ⟨outgoing, outgoingInside, inside⟩ := inside
      obtain ⟨outgoingMember, leaves⟩ := List.mem_filter.mp outgoingInside
      have leaves : outgoing.from = incoming.to := of_decide_eq_true leaves
      by_cases outgoingMain : outgoing.type = .main
      · rw [if_neg (by simp [outgoingMain]), List.mem_singleton] at inside
        subst inside
        refine ⟨incomingMain, ?_, ?_⟩
        · exact ⟨incoming.inputIndex, mainEdge_of_mem incomingMember incomingMain⟩
        · exact ⟨outgoing.outputIndex, leaves ▸ mainEdge_of_mem outgoingMember outgoingMain⟩
      · simp [outgoingMain] at inside
    · simp [incomingMain] at inside
  · rintro ⟨isMain, ⟨inputIndex, into⟩, outputIndex, out⟩
    refine ⟨_, ⟨into, rfl⟩, ?_⟩
    rw [if_neg (by simp), List.mem_flatMap]
    refine ⟨_, List.mem_filter.mpr ⟨out, by simp⟩, ?_⟩
    rw [if_neg (by simp), List.mem_singleton]
    obtain ⟨source, target, type, outputIndex', inputIndex'⟩ := connection
    cases isMain
    rfl

theorem mem_dropConnectionsOf :
    connection ∈ (graph.dropConnectionsOf node).values ↔
      connection ∈ graph.connections.values ∧ connection.to ≠ node ∧ connection.from ≠ node := by
  simp [dropConnectionsOf, OrderedMap.mem_values_filterValues]

/-! ## The loop -/

/-- A connection that can turn up while the disabled nodes are removed: one of the graph, or
the two ends of a route over disabled nodes. -/
def Candidate (graph : DirectedGraph) (connection : GraphConnection) : Prop :=
  connection ∈ graph.connections.values ∨ connection.type = .main ∧
    Route graph.MainEdge (·.isDisabled) connection.from connection.outputIndex connection.inputIndex
      connection.to

def KeysDistinct (graph : DirectedGraph) : Prop :=
  ∀ first second, graph.Candidate first → graph.Candidate second → makeKey first = makeKey second →
    first = second

/-- No cycle of data connections has disabled nodes only. -/
def NoDisabledCycle (graph : DirectedGraph) : Prop :=
  ∀ node, node.isDisabled → ∀ outputIndex inputIndex,
    ¬ Route graph.MainEdge (·.isDisabled) node outputIndex inputIndex node

/-- What holds of the graph once the nodes of `removed` are removed, in this order. -/
structure Filtered (graph : DirectedGraph) (removed : List INode) (current : DirectedGraph) : Prop where
  nodes : ∀ name node, current.nodes.get? name = some node ↔
    graph.nodes.get? name = some node ∧ node ∉ removed
  keyed : ∀ entry ∈ current.connections.entries, entry.1 = makeKey entry.2
  others : ∀ connection ∈ current.connections.values, connection.type ≠ .main →
    connection ∈ graph.connections.values ∧ connection.from ∉ removed ∧ connection.to ∉ removed
  sound : ∀ u outputIndex inputIndex v, current.MainEdge u outputIndex inputIndex v →
    Route graph.MainEdge (· ∈ removed) u outputIndex inputIndex v
  complete : ∀ u outputIndex inputIndex v, u ∉ removed → v ∉ removed →
    Route graph.MainEdge (· ∈ removed) u outputIndex inputIndex v →
      current.MainEdge u outputIndex inputIndex v
  closed : graph.NoDisabledCycle → ∀ u outputIndex inputIndex v,
    current.MainEdge u outputIndex inputIndex v → u ∉ removed ∧ v ∉ removed
  /-- A node that was connected to itself when its turn came keeps that connection. -/
  loops : ∀ earlier node later, removed = earlier ++ node :: later → ∀ outputIndex inputIndex,
    Route graph.MainEdge (· ∈ earlier) node outputIndex inputIndex node →
      current.MainEdge node outputIndex inputIndex node

section Removal

variable {graph current : DirectedGraph} {removed : List INode} {node : INode} {connection : GraphConnection}

theorem Filtered.candidate (filtered : Filtered graph removed current)
    (allDisabled : ∀ other ∈ removed, other.isDisabled)
    (member : connection ∈ current.connections.values) : graph.Candidate connection := by
  by_cases isMain : connection.type = .main
  · have route := filtered.sound _ _ _ _ (mainEdge_of_mem member isMain)
    exact .inr ⟨isMain, route.mono allDisabled⟩
  · exact .inl (filtered.others connection member isMain).1

theorem Filtered.bypass_candidate (filtered : Filtered graph removed current)
    (allDisabled : ∀ other ∈ removed, other.isDisabled) (isDisabled : node.isDisabled)
      (member : connection ∈ current.bypassOf node) :
    graph.Candidate connection := by
  obtain ⟨isMain, ⟨inputIndex, into⟩, outputIndex, out⟩ := mem_bypassOf.mp member
  have intoRoute := (filtered.sound _ _ _ _ into).mono allDisabled
  have outRoute := (filtered.sound _ _ _ _ out).mono allDisabled
  exact .inr ⟨isMain, intoRoute.trans isDisabled outRoute⟩

theorem Filtered.mem_afterRemoval (filtered : Filtered graph removed current)
    (allDisabled : ∀ other ∈ removed, other.isDisabled) (isDisabled : node.isDisabled)
    (distinct : graph.KeysDistinct) :
    connection ∈ (current.afterRemoval node).connections.values ↔
      (connection ∈ current.connections.values ∧ connection.to ≠ node ∧ connection.from ≠ node) ∨
        connection ∈ current.bypassOf node := by
  have candidates : ∀ other ∈ (current.dropConnectionsOf node).values ++ current.bypassOf node,
      graph.Candidate other := by
    intro other inside
    rcases List.mem_append.mp inside with kept | new
    · exact filtered.candidate allDisabled (mem_dropConnectionsOf.mp kept).1
    · exact filtered.bypass_candidate allDisabled isDisabled new
  have keyed : ∀ entry ∈ (current.dropConnectionsOf node).entries, entry.1 = makeKey entry.2 :=
    fun entry member => filtered.keyed entry (OrderedMap.mem_filterValues.mp member).1
  rw [← mem_dropConnectionsOf]
  exact OrderedMap.mem_values_foldl_set keyed fun first firstMember second secondMember =>
    distinct first second (candidates first firstMember) (candidates second secondMember)

theorem Filtered.mainEdge_afterRemoval (filtered : Filtered graph removed current)
    (allDisabled : ∀ other ∈ removed, other.isDisabled) (isDisabled : node.isDisabled)
    (distinct : graph.KeysDistinct) {u v : INode} {outputIndex inputIndex : Nat} :
    (current.afterRemoval node).MainEdge u outputIndex inputIndex v ↔
      (current.MainEdge u outputIndex inputIndex v ∧ v ≠ node ∧ u ≠ node) ∨
        (∃ inputIndex', current.MainEdge u outputIndex inputIndex' node) ∧
          ∃ outputIndex', current.MainEdge node outputIndex' inputIndex v := by
  rw [MainEdge, filtered.mem_afterRemoval allDisabled isDisabled distinct, mem_bypassOf]
  simp only [true_and]
  rfl

theorem Filtered.get?_afterRemoval (filtered : Filtered graph removed current)
    (wellFormed : graph.WellFormed) (contains : current.Contains node) (name : String) (other : INode) :
    (current.afterRemoval node).nodes.get? name = some other ↔
      graph.nodes.get? name = some other ∧ other ∉ removed ++ [node] := by
  have inGraph := (filtered.nodes _ _).mp contains
  have asCurrent : graph.nodes.get? name = some other ∧ other ∉ removed ++ [node] ↔
      current.nodes.get? name = some other ∧ other ≠ node := by
    rw [filtered.nodes, List.mem_append, List.mem_singleton, not_or, and_assoc]
  rw [asCurrent, DirectedGraph.afterRemoval]
  by_cases sameName : name = node.name
  · subst sameName
    rw [OrderedMap.get?_erase_self]
    refine iff_of_false (by simp) fun present => ?_
    exact present.2 (Option.some.inj (present.1.symm.trans contains))
  · rw [OrderedMap.get?_erase_of_ne _ sameName]
    refine ⟨fun present => ⟨present, ?_⟩, And.left⟩
    -- another name means another node: the graph files every node under its own name
    intro isNode
    have filed := wellFormed.nodeKeys _ (OrderedMap.get?_eq_some.mp ((filtered.nodes _ _).mp present).1)
    exact sameName (isNode ▸ filed)

theorem Filtered.afterRemoval (filtered : Filtered graph removed current) (wellFormed : graph.WellFormed)
    (allDisabled : ∀ other ∈ removed, other.isDisabled) (isDisabled : node.isDisabled)
    (contains : current.Contains node) (distinct : graph.KeysDistinct) :
    Filtered graph (removed ++ [node]) (current.afterRemoval node) := by
  have edges := fun u outputIndex inputIndex v =>
    @Filtered.mainEdge_afterRemoval _ _ _ _ filtered allDisabled isDisabled distinct u v outputIndex inputIndex
  have notRemoved : node ∉ removed := ((filtered.nodes _ _).mp contains).2
  have inside : ∀ other, other ∈ removed ++ [node] ↔ other ∈ removed ∨ other = node := by simp
  have widen : ∀ u outputIndex inputIndex v,
      Route graph.MainEdge (· ∈ removed) u outputIndex inputIndex v →
        Route graph.MainEdge (· ∈ removed ++ [node]) u outputIndex inputIndex v :=
    fun _ _ _ _ route => route.mono fun _ member => List.mem_append_left _ member
  refine ⟨filtered.get?_afterRemoval wellFormed contains, ?_, ?_, ?_, ?_, ?_, ?_⟩
  · exact OrderedMap.keyed_foldl_set _ fun entry member =>
      filtered.keyed entry (OrderedMap.mem_filterValues.mp member).1
  · intro connection member notMain
    cases (filtered.mem_afterRemoval allDisabled isDisabled distinct).mp member with
    | inl kept =>
      obtain ⟨member, toOther, fromOther⟩ := kept
      obtain ⟨original, fromKept, toKept⟩ := filtered.others connection member notMain
      refine ⟨original, ?_, ?_⟩
      · rw [inside]; exact not_or.mpr ⟨fromKept, fromOther⟩
      · rw [inside]; exact not_or.mpr ⟨toKept, toOther⟩
    | inr new => exact absurd (mem_bypassOf.mp new).1 notMain
  · intro u outputIndex inputIndex v edge
    cases (edges u outputIndex inputIndex v).mp edge with
    | inl kept => exact widen _ _ _ _ (filtered.sound _ _ _ _ kept.1)
    | inr joined =>
      obtain ⟨⟨inputIndex', into⟩, outputIndex', out⟩ := joined
      have intoRoute := widen _ _ _ _ (filtered.sound _ _ _ _ into)
      have outRoute := widen _ _ _ _ (filtered.sound _ _ _ _ out)
      exact intoRoute.trans (by simp) outRoute
  · intro u outputIndex inputIndex v uKept vKept route
    rw [inside, not_or] at uKept vKept
    rw [edges]
    cases Route.insert_iff.mp (route.mono fun other => (inside other).mp) with
    | inl avoids =>
      exact .inl ⟨filtered.complete _ _ _ _ uKept.1 vKept.1 avoids, vKept.2, uKept.2⟩
    | inr through =>
      obtain ⟨⟨inputIndex', into⟩, outputIndex', out⟩ := through
      exact .inr ⟨⟨inputIndex', filtered.complete _ _ _ _ uKept.1 notRemoved into⟩,
        outputIndex', filtered.complete _ _ _ _ notRemoved vKept.1 out⟩
  · intro noCycle u outputIndex inputIndex v edge
    have noLoop : ∀ outputIndex inputIndex, ¬ current.MainEdge node outputIndex inputIndex node :=
      fun outputIndex inputIndex loop => noCycle node isDisabled outputIndex inputIndex
        ((filtered.sound _ _ _ _ loop).mono allDisabled)
    rw [inside, inside, not_or, not_or]
    cases (edges u outputIndex inputIndex v).mp edge with
    | inl kept =>
      obtain ⟨uKept, vKept⟩ := filtered.closed noCycle _ _ _ _ kept.1
      exact ⟨⟨uKept, kept.2.2⟩, vKept, kept.2.1⟩
    | inr joined =>
      obtain ⟨⟨inputIndex', into⟩, outputIndex', out⟩ := joined
      refine ⟨⟨(filtered.closed noCycle _ _ _ _ into).1, ?_⟩,
        (filtered.closed noCycle _ _ _ _ out).2, ?_⟩
      · intro isNode; exact noLoop _ _ (isNode ▸ into)
      · intro isNode; exact noLoop _ _ (isNode ▸ out)
  · intro earlier first later split outputIndex inputIndex loop
    rw [edges]
    cases List.eq_nil_or_concat later with
    | inl isLast =>
      -- `first` is the node that is removed now, and it is connected to itself
      have split : removed ++ [node] = earlier ++ [first] := by rw [split, isLast]
      obtain ⟨rfl, same⟩ := List.append_inj' split rfl
      cases same
      have present := filtered.complete _ _ _ _ notRemoved notRemoved loop
      exact .inr ⟨⟨_, present⟩, _, present⟩
    | inr before =>
      obtain ⟨middle, last, rfl⟩ := before
      have split : removed ++ [node] = (earlier ++ first :: middle) ++ [last] := by simp [split]
      obtain ⟨rfl, same⟩ := List.append_inj' split rfl
      have present := filtered.loops earlier first middle rfl outputIndex inputIndex loop
      have other : first ≠ node := by
        intro same
        exact notRemoved (same ▸ by simp)
      exact .inl ⟨present, other, other⟩

end Removal

/-- The filtered graph has the enabled nodes, and its data connections are the routes over disabled
nodes. -/
structure PreservesRouting (graph filtered : DirectedGraph) : Prop where
  nodes : ∀ node, node ∈ filtered.nodes.values ↔
    node ∈ graph.nodes.values ∧ node.isDisabled = false
  joined : ∀ connection ∈ filtered.connections.values,
    filtered.Contains connection.from ∧ filtered.Contains connection.to
  routes : ∀ u v, u.isDisabled = false → v.isDisabled = false → ∀ outputIndex inputIndex,
    filtered.MainEdge u outputIndex inputIndex v ↔
      Route graph.MainEdge (·.isDisabled) u outputIndex inputIndex v

variable {u v : INode} {outputIndex inputIndex : Nat}

theorem WellFormed.contains_of_route (wellFormed : graph.WellFormed) {inner : INode → Prop}
    (route : Route graph.MainEdge inner u outputIndex inputIndex v) :
    graph.Contains u ∧ graph.Contains v := by
  obtain ⟨_, _, firstEdge⟩ := route.exists_first
  obtain ⟨_, _, lastEdge⟩ := route.exists_last
  exact ⟨wellFormed.fromNode _ firstEdge, wellFormed.toNode _ lastEdge⟩

theorem WellFormed.route_removed_iff (wellFormed : graph.WellFormed) :
    Route graph.MainEdge (· ∈ graph.nodes.values.filter (·.isDisabled)) u outputIndex inputIndex v ↔
      Route graph.MainEdge (·.isDisabled) u outputIndex inputIndex v := by
  constructor
  · intro route
    exact route.mono fun node member => by simpa using (List.mem_filter.mp member).2
  · intro route
    refine route.mono_of_edge fun _ _ _ node edge isDisabled => List.mem_filter.mpr ⟨?_, isDisabled⟩
    exact wellFormed.contains_iff.mp (wellFormed.toNode _ edge)

variable {graph filtered : DirectedGraph}

theorem Filtered.preservesRouting (wellFormed : graph.WellFormed)
    (final : Filtered graph (graph.nodes.values.filter (·.isDisabled)) filtered)
    (noCycle : graph.NoDisabledCycle) : PreservesRouting graph filtered := by
  have enabled : ∀ node, graph.Contains node →
      (node ∉ graph.nodes.values.filter (·.isDisabled) ↔ node.isDisabled = false) := by
    intro node contains
    simp [List.mem_filter, wellFormed.contains_iff.mp contains]
  have contains_iff : ∀ node, filtered.Contains node ↔ graph.Contains node ∧ node.isDisabled = false := by
    intro node
    rw [Contains, final.nodes]
    exact and_congr_right fun contains => enabled node contains
  refine ⟨fun node => ?_, fun connection member => ?_, fun u v uEnabled vEnabled _ _ => ?_⟩
  · rw [← wellFormed.contains_iff, ← contains_iff, Contains, OrderedMap.mem_values]
    refine ⟨?_, fun inside => ⟨_, OrderedMap.get?_eq_some.mp inside⟩⟩
    rintro ⟨name, inside⟩
    have present := OrderedMap.get?_eq_some.mpr inside
    have filed := wellFormed.nodeKeys _ (OrderedMap.get?_eq_some.mp ((final.nodes _ _).mp present).1)
    exact filed ▸ present
  -- Bypass connections are of the type main; the others are connections of the graph.
  · by_cases isMain : connection.type = .main
    · have edge := mainEdge_of_mem member isMain
      obtain ⟨fromKept, toKept⟩ := final.closed noCycle _ _ _ _ edge
      obtain ⟨fromOld, toOld⟩ := wellFormed.contains_of_route (final.sound _ _ _ _ edge)
      exact ⟨(final.nodes _ _).mpr ⟨fromOld, fromKept⟩, (final.nodes _ _).mpr ⟨toOld, toKept⟩⟩
    · obtain ⟨original, fromKept, toKept⟩ := final.others connection member isMain
      exact ⟨(final.nodes _ _).mpr ⟨wellFormed.fromNode _ original, fromKept⟩,
        (final.nodes _ _).mpr ⟨wellFormed.toNode _ original, toKept⟩⟩
  · have notListed : ∀ node, node.isDisabled = false →
        node ∉ graph.nodes.values.filter (·.isDisabled) := by
      intro node isEnabled member
      simp [isEnabled] at member
    refine ⟨fun edge => wellFormed.route_removed_iff.mp (final.sound _ _ _ _ edge), fun route => ?_⟩
    exact final.complete _ _ _ _ (notListed u uEnabled) (notListed v vEnabled)
      (wellFormed.route_removed_iff.mpr route)

/-- A disabled node with data connections on its second input and its third output. -/
def secondInput : DirectedGraph :=
  let trigger : INode := { id := "0", name := "trigger", type := "trigger" }
  let disabled : INode := { id := "1", name := "disabled", type := "merge", disabled := some true }
  let node : INode := { id := "2", name := "node", type := "set" }
  let connection1 : GraphConnection := ⟨trigger, disabled, .main, 1, 1⟩
  let connection2 : GraphConnection := ⟨disabled, node, .main, 2, 3⟩
  { nodes := [trigger, disabled, node].foldl (fun nodes node => nodes.set node.name node) ∅
    connections := [connection1, connection2].foldl
      (fun connections connection => connections.set (makeKey connection) connection) ∅ }

end DirectedGraph

end N8n.Core
