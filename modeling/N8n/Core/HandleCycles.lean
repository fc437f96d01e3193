import Mathlib.Data.List.Pairwise
import N8n.Core.StronglyConnectedComponents

/-! # Restarting cycles

`handle-cycles.ts` replaces a start node by the first node of its cycle that a
depth-first search from the trigger meets.  The cycles are the sets that
`getStronglyConnectedComponents` returns, so a start node that is missing from
these sets, or whose set misses the entry of the component, stays inside its cycle.
-/

namespace N8n.Core

open DepthFirst

namespace DirectedGraph

/-- `fuel` is the call stack; see `depthFirstSearch_eq`. -/
def depthFirstSearchRecursive (graph : DirectedGraph) (fn : INode → Bool) :
    Nat → INode → List INode → Except Thrown (Option INode × List INode)
  | 0, _, _ => .error .rangeError
  | fuel + 1, start, seen =>
    if start ∈ seen then .ok (none, seen)
    else
      let seen := seen ++ [start]
      if fn start then .ok (some start, seen)
      else do
        let childConnections ← graph.getDirectChildConnections start
        childConnections.foldlM (fun search childConnection =>
          -- the loop returns at the first node found
          if search.1.isSome then .ok search
          else graph.depthFirstSearchRecursive fn fuel childConnection.to search.2) (none, seen)

def depthFirstSearch (graph : DirectedGraph) (start : INode) (fn : INode → Bool) :
    Except Thrown (Option INode) := do
  let search ← graph.depthFirstSearchRecursive fn (graph.nodes.size + 1) start []
  .ok search.1

/-- `Set.add`: a new member comes last. -/
def addToSet (set : List INode) (node : INode) : List INode := if node ∈ set then set else set ++ [node]

def restartCycle (graph : DirectedGraph) (trigger startNode : INode) (newStartNodes cycle : List INode) :
    Except Thrown (List INode) :=
  if startNode ∈ cycle then do
    match ← graph.depthFirstSearch trigger (· ∈ cycle) with
    | none => .error (.assertionError ("the trigger must be connected to the cycle, " ++
        "otherwise the cycle wouldn't be part of the subgraph"))
    | some firstNode => .ok (addToSet (newStartNodes.filter (· ≠ startNode)) firstNode)
  else .ok newStartNodes

def handleCycles (graph : DirectedGraph) (startNodes : List INode) (trigger : INode) :
    Except Thrown (List INode) := do
  let components ← graph.getStronglyConnectedComponents
  let cycles := components.filter (·.length ≥ 1)
  if cycles.length = 0 then .ok startNodes
  else startNodes.foldlM (fun newStartNodes startNode =>
    cycles.foldlM (graph.restartCycle trigger startNode) newStartNodes) startNodes

/-! ## The search for the first node -/

/-- The order in which a depth-first search from `trigger` meets the nodes. -/
def Meets (graph : DirectedGraph) (trigger : INode) (order : List INode) : Prop :=
  ∃ events, Run graph.children (.visit trigger) [] events order

theorem WellFormed.exists_meets {graph : DirectedGraph} (wellFormed : graph.WellFormed) {trigger : INode}
    (contains : graph.Contains trigger) : ∃ order, graph.Meets trigger order := by
  have closed : ∀ node ∈ graph.nodes.values, ∀ child ∈ graph.children node, child ∈ graph.nodes.values :=
    fun node _ child isChild => wellFormed.contains_iff.mp (ComponentSearch.children_contains wellFormed isChild)
  obtain ⟨events, order, run⟩ :=
    exists_visit closed _ [] (Nat.le_refl _) trigger (wellFormed.contains_iff.mp contains)
  exact ⟨order, events, run⟩

variable {order : List INode}

theorem Meets.explored {graph : DirectedGraph} {trigger : INode} (meets : graph.Meets trigger order) :
    ∃ past, Explored graph.children order order [] past := by
  obtain ⟨events, run⟩ := meets
  have start : Explored graph.children order [] [] [] := explored_nil (run.nodup List.nodup_nil)
  exact ⟨_, (run.explored (List.prefix_refl _) start (by simp [Call.Fits])).1⟩

theorem Meets.mem_of_reaches {graph : DirectedGraph} {trigger node : INode} (meets : graph.Meets trigger order)
    (reaches : Relation.ReflTransGen graph.LeadsTo trigger node) :
    node ∈ order := by
  obtain ⟨past, explored⟩ := meets.explored
  obtain ⟨events, run⟩ := meets
  have closed : ∀ u ∈ order, ∀ child ∈ graph.children u, child ∈ order :=
    fun u member child isChild => (explored.pastVisited _ (explored.left u member (by simp) child isChild)).2
  rw [← reaches_iff] at reaches
  induction reaches with
  | refl => exact run.visits
  | tail _ isChild ih => exact closed _ ih _ isChild

variable {fn : INode → Bool}

theorem find?_of_isPrefix {seen seen' : List INode} {node : INode} (isPrefix : seen <+: seen')
    (found : seen.find? fn = some node) : seen'.find? fn = some node := by
  obtain ⟨later, rfl⟩ := isPrefix
  rw [List.find?_append, found]
  rfl

/-- One turn of the loop over the children. -/
def searchChild (graph : DirectedGraph) (fn : INode → Bool) (fuel : Nat) (search : Option INode × List INode)
    (child : INode) : Except Thrown (Option INode × List INode) :=
  if search.1.isSome then .ok search else graph.depthFirstSearchRecursive fn fuel child search.2

theorem searchChild_found (graph : DirectedGraph) (fn : INode → Bool) (fuel : Nat) (node : INode)
    (seen remaining : List INode) :
    remaining.foldlM (graph.searchChild fn fuel) (some node, seen) = .ok (some node, seen) := by
  induction remaining with
  | nil => rfl
  | cons child remaining ih =>
    have stays : graph.searchChild fn fuel (some node, seen) child = .ok (some node, seen) := rfl
    rw [Loop.foldlM_cons_ok stays, ih]

/-- The search up to the order `seen'` finds what `find?` finds in it. -/
def Finds (graph : DirectedGraph) (fn : INode → Bool) (fuel : Nat) (seen seen' : List INode) :
    Call INode → Prop
  | .visit node => ∃ last, graph.depthFirstSearchRecursive fn fuel node seen = .ok (seen'.find? fn, last) ∧
      (seen'.find? fn = none → last = seen')
  | .loop _ remaining => ∃ last,
      remaining.foldlM (graph.searchChild fn fuel) (none, seen) = .ok (seen'.find? fn, last) ∧
        (seen'.find? fn = none → last = seen')
  | .roots _ => True

theorem finds_of_run {graph : DirectedGraph} (wellFormed : graph.WellFormed) {call : Call INode}
    {seen seen' : List INode} {events : List (Event INode)} (run : Run graph.children call seen events seen') :
    ∀ fuel, seen.find? fn = none →
      ComponentSearch.Starts graph call →
      (Traversal.unmarked graph.nodes.values seen).length < fuel → graph.Finds fn fuel seen seen' call := by
  induction run with
  | @seen node seen member =>
    intro fuel nothing _ enough
    obtain ⟨fuel, rfl⟩ := Nat.exists_eq_succ_of_ne_zero (Nat.ne_of_gt (Nat.zero_lt_of_lt enough))
    refine ⟨seen, ?_, fun _ => rfl⟩
    rw [nothing]
    exact if_pos member
  | @fresh node seen seen' events unvisited below ih =>
    intro fuel nothing contains enough
    obtain ⟨fuel, rfl⟩ := Nat.exists_eq_succ_of_ne_zero (Nat.ne_of_gt (Nat.zero_lt_of_lt enough))
    have fewer := Traversal.length_unmarked_lt (wellFormed.contains_iff.mp contains) unvisited
    have children_eq : graph.getDirectChildConnections node =
        .ok (graph.connections.values.filter fun connection => connection.from = node) := if_pos contains
    by_cases isWanted : fn node = true
    · have found : (seen ++ [node]).find? fn = some node := by
        rw [List.find?_append, nothing]
        simp [isWanted]
      have foundLater := find?_of_isPrefix below.isPrefix found
      refine ⟨seen ++ [node], ?_, by simp [foundLater]⟩
      rw [depthFirstSearchRecursive, if_neg unvisited, foundLater]
      exact if_pos isWanted
    · have nothingYet : (seen ++ [node]).find? fn = none := by
        rw [List.find?_append, nothing]
        simp [isWanted]
      obtain ⟨last, loops, same⟩ := ih fuel nothingYet
        (fun child isChild => ComponentSearch.children_contains wellFormed isChild) (by omega)
      refine ⟨last, ?_, same⟩
      rw [depthFirstSearchRecursive, if_neg unvisited]
      dsimp only
      rw [if_neg isWanted, children_eq, ← loops, children, List.foldlM_map]
      rfl
  | @done node seen =>
    intro fuel nothing _ _
    exact ⟨seen, by rw [nothing]; rfl, fun _ => rfl⟩
  | @next node child remaining seen seen₁ seen₂ first rest down further visits loops =>
    intro fuel nothing contains enough
    obtain ⟨last, visit, same⟩ := visits fuel nothing (contains child List.mem_cons_self) enough
    have turn : graph.searchChild fn fuel (none, seen) child = .ok (seen₁.find? fn, last) := visit
    cases found : seen₁.find? fn with
    | none =>
      obtain rfl := same found
      have fewer := Traversal.length_unmarked_le graph.nodes.values down.isPrefix.subset
      obtain ⟨final, loop, finalSame⟩ := loops fuel found
        (fun other member => contains other (List.mem_cons_of_mem _ member)) (by omega)
      refine ⟨final, ?_, finalSame⟩
      rw [Loop.foldlM_cons_ok (found ▸ turn), loop]
    | some node =>
      have foundLater := find?_of_isPrefix further.isPrefix found
      refine ⟨last, ?_, by simp [foundLater]⟩
      rw [Loop.foldlM_cons_ok (found ▸ turn), searchChild_found, foundLater]
  | finished => intro _ _ _ _; trivial
  | root => intro _ _ _ _; trivial

theorem depthFirstSearch_eq {graph : DirectedGraph} (wellFormed : graph.WellFormed) {trigger : INode}
    (contains : graph.Contains trigger) (meets : graph.Meets trigger order) (fn : INode → Bool) :
    graph.depthFirstSearch trigger fn = .ok (order.find? fn) := by
  obtain ⟨events, run⟩ := meets
  have enough : (Traversal.unmarked graph.nodes.values ([] : List INode)).length < graph.nodes.size + 1 := by
    rw [← OrderedMap.length_values]
    exact Nat.lt_succ_of_le (List.length_filter_le _ _)
  obtain ⟨last, found, _⟩ := finds_of_run wellFormed run (graph.nodes.size + 1) rfl contains enough
  rw [depthFirstSearch, found]
  rfl

/-! ## What becomes of one start node -/

theorem mem_addToSet {set : List INode} {node other : INode} :
    other ∈ addToSet set node ↔ other ∈ set ∨ other = node := by
  rw [addToSet]
  split
  · rename_i member
    exact ⟨.inl, fun known => known.elim id fun same => same ▸ member⟩
  · rw [List.mem_append, List.mem_singleton]

/-- The node that takes the place of a start node. -/
def restart (order : List INode) (cycles : List (List INode)) (node : INode) : INode :=
  match cycles.find? (node ∈ ·) with
  | none => node
  | some cycle => (order.find? (· ∈ cycle)).getD node

section Restart

variable {graph : DirectedGraph} {order : List INode} {cycles : List (List INode)} {node other : INode}

theorem restart_of_none (outside : cycles.find? (node ∈ ·) = none) : restart order cycles node = node := by
  rw [restart, outside]

variable {cycle : List INode}

/-- The first node of its set takes the place of a node that has been met. -/
theorem find?_restart (met : node ∈ order) (found : cycles.find? (node ∈ ·) = some cycle) :
    order.find? (· ∈ cycle) = some (restart order cycles node) := by
  have inside : node ∈ cycle := by simpa using List.find?_some found
  have isSome : (order.find? (· ∈ cycle)).isSome := List.find?_isSome.mpr ⟨node, met, by simpa using inside⟩
  obtain ⟨firstNode, first⟩ := Option.isSome_iff_exists.mp isSome
  rw [restart, found]
  simp [first]

theorem restart_mem (met : node ∈ order) (found : cycles.find? (node ∈ ·) = some cycle) :
    restart order cycles node ∈ cycle := by
  simpa using List.find?_some (find?_restart met found)

theorem find?_cycle_eq (disjoint : cycles.Pairwise List.Disjoint) (member : cycle ∈ cycles) (inside : node ∈ cycle) :
    cycles.find? (node ∈ ·) = some cycle := by
  have isSome : (cycles.find? (node ∈ ·)).isSome := List.find?_isSome.mpr ⟨cycle, member, by simpa using inside⟩
  obtain ⟨another, found⟩ := Option.isSome_iff_exists.mp isSome
  have insideAnother : node ∈ another := by simpa using List.find?_some found
  have symmetric : Std.Symm (@List.Disjoint INode) := ⟨fun _ _ apart _ inFirst inSecond => apart inSecond inFirst⟩
  have same : another = cycle := by
    by_contra different
    exact disjoint.forall (List.mem_of_find?_eq_some found) member different insideAnother inside
  rw [found, same]

theorem restart_restart (disjoint : cycles.Pairwise List.Disjoint) (met : node ∈ order) :
    restart order cycles (restart order cycles node) = restart order cycles node := by
  cases found : cycles.find? (node ∈ ·) with
  | none => rw [restart_of_none found, restart_of_none found]
  | some cycle =>
    -- The node and its restart are in one set, so that one first node takes the places of both.
    have sameCycle := find?_cycle_eq disjoint (List.mem_of_find?_eq_some found) (restart_mem met found)
    have first := find?_restart met found
    have again := find?_restart (List.mem_of_find?_eq_some first) sameCycle
    exact Option.some.inj (again.symm.trans first)

theorem restartCycles_outside (trigger : INode) (outside : ∀ cycle ∈ cycles, node ∉ cycle)
    (newStartNodes : List INode) :
    cycles.foldlM (graph.restartCycle trigger node) newStartNodes = .ok newStartNodes := by
  induction cycles with
  | nil => rfl
  | cons cycle rest ih =>
    have stays : graph.restartCycle trigger node newStartNodes cycle = .ok newStartNodes :=
      if_neg (outside cycle List.mem_cons_self)
    rw [Loop.foldlM_cons_ok stays]
    exact ih fun other member => outside other (List.mem_cons_of_mem _ member)

theorem restartCycles_returns (wellFormed : graph.WellFormed) {trigger : INode}
    (contains : graph.Contains trigger) (meets : graph.Meets trigger order)
    (disjoint : cycles.Pairwise List.Disjoint) (met : node ∈ order) {newStartNodes : List INode}
    (fixed : restart order cycles node = node → node ∈ newStartNodes) :
    ∃ next, cycles.foldlM (graph.restartCycle trigger node) newStartNodes = .ok next ∧
      ∀ other, other ∈ next ↔ other = restart order cycles node ∨ other ∈ newStartNodes ∧ other ≠ node := by
  cases found : cycles.find? (node ∈ ·) with
  | none =>
    have outside : ∀ cycle ∈ cycles, node ∉ cycle := by simpa using found
    refine ⟨newStartNodes, restartCycles_outside trigger outside newStartNodes, fun other => ?_⟩
    have same : restart order cycles node = node := restart_of_none found
    rw [same]
    constructor
    · exact fun member => (em (other = node)).imp id fun different => ⟨member, different⟩
    · exact fun known => known.elim (fun isNode => isNode ▸ fixed same) And.left
  | some cycle =>
    have inside : node ∈ cycle := by simpa using List.find?_some found
    obtain ⟨before, after, rfl, _⟩ := (List.find?_eq_some_iff_append.mp found).2
    obtain ⟨_, apart, acrossApart⟩ := List.pairwise_append.mp disjoint
    have first := find?_restart met found
    generalize restart order (before ++ cycle :: after) node = firstNode at first
    have notBefore : ∀ earlier ∈ before, node ∉ earlier :=
      fun earlier member insideEarlier => acrossApart earlier member cycle List.mem_cons_self insideEarlier inside
    have notAfter : ∀ later ∈ after, node ∉ later :=
      fun later member insideLater => List.rel_of_pairwise_cons apart member inside insideLater
    have searched : graph.depthFirstSearch trigger (· ∈ cycle) = .ok (some firstNode) := by
      rw [depthFirstSearch_eq wellFormed contains meets, first]
    have turn : graph.restartCycle trigger node newStartNodes cycle =
        .ok (addToSet (newStartNodes.filter (· ≠ node)) firstNode) := by
      rw [restartCycle, if_pos inside, searched]
      rfl
    refine ⟨addToSet (newStartNodes.filter (· ≠ node)) firstNode, ?_, fun other => ?_⟩
    · rw [Loop.foldlM_append_ok (restartCycles_outside trigger notBefore newStartNodes),
        Loop.foldlM_cons_ok turn, restartCycles_outside trigger notAfter]
    · rw [mem_addToSet, List.mem_filter, decide_eq_true_eq, or_comm]

/-- The new start nodes are the nodes that take the places of the start nodes, whatever the order
in which start nodes are deleted and added. -/
theorem handleCycles_image (wellFormed : graph.WellFormed) {trigger : INode}
    (contains : graph.Contains trigger) (meets : graph.Meets trigger order) {components : List (List INode)}
    (returned : graph.getStronglyConnectedComponents = .ok components)
    (disjoint : components.Pairwise List.Disjoint) {startNodes : List INode}
    (met : ∀ startNode ∈ startNodes, startNode ∈ order) :
    ∃ newStartNodes, graph.handleCycles startNodes trigger = .ok newStartNodes ∧
      ∀ node, node ∈ newStartNodes ↔
        ∃ startNode ∈ startNodes, node = restart order (components.filter (·.length ≥ 1)) startNode := by
  have cyclesDisjoint := disjoint.sublist (List.filter_sublist (p := (·.length ≥ 1)))
  generalize cycles_eq : components.filter (·.length ≥ 1) = cycles at cyclesDisjoint
  have body : graph.handleCycles startNodes trigger = if cycles.length = 0 then .ok startNodes else
      startNodes.foldlM (fun newStartNodes startNode =>
        cycles.foldlM (graph.restartCycle trigger startNode) newStartNodes) startNodes := by
    rw [handleCycles, returned, ← cycles_eq]
    rfl
  rw [body]
  split
  · rename_i none
    obtain rfl := List.length_eq_zero_iff.mp none
    refine ⟨startNodes, rfl, fun node => ?_⟩
    exact ⟨fun member => ⟨node, member, rfl⟩, fun ⟨_, member, same⟩ => same ▸ member⟩
  · let reached : List INode → List INode → Prop := fun done newStartNodes => ∀ node, node ∈ newStartNodes ↔
      (∃ startNode ∈ done, node = restart order cycles startNode) ∨ node ∈ startNodes ∧ node ∉ done
    have turn : ∀ before startNode after, startNodes = before ++ startNode :: after → ∀ newStartNodes,
        reached before newStartNodes → ∃ next,
          cycles.foldlM (graph.restartCycle trigger startNode) newStartNodes = .ok next ∧
            reached (before ++ [startNode]) next := by
      intro before startNode after split newStartNodes sofar
      have isStart : startNode ∈ startNodes := by simp [split]
      have startMet := met startNode isStart
      -- a node that keeps its place is there already
      have fixed : restart order cycles startNode = startNode → startNode ∈ newStartNodes := by
        intro same
        rw [sofar]
        by_cases done : startNode ∈ before
        · exact .inl ⟨startNode, done, same.symm⟩
        · exact .inr ⟨isStart, done⟩
      obtain ⟨next, returns, inNext⟩ :=
        restartCycles_returns wellFormed contains meets cyclesDisjoint startMet fixed
      refine ⟨next, returns, fun node => ?_⟩
      rw [inNext, sofar]
      constructor
      · intro known
        obtain isImage | ⟨⟨earlier, done, isImage⟩ | ⟨isOther, notDone⟩, different⟩ := known
        · exact .inl ⟨startNode, by simp, isImage⟩
        · exact .inl ⟨earlier, by simp [done], isImage⟩
        · exact .inr ⟨isOther, by simp [notDone, different]⟩
      · intro known
        obtain ⟨earlier, done, isImage⟩ | ⟨isOther, notDone⟩ := known
        · cases List.mem_append.mp done with
          | inr isLast => exact .inl (List.mem_singleton.mp isLast ▸ isImage)
          | inl done =>
            by_cases same : node = startNode
            · -- the start node itself is the place of an earlier one, and stays
              refine .inl ?_
              have earlierMet := met earlier (by simp [split, done])
              rw [← same, isImage, restart_restart cyclesDisjoint earlierMet]
            · exact .inr ⟨.inl ⟨earlier, done, isImage⟩, same⟩
        · simp only [List.mem_append, List.mem_singleton, not_or] at notDone
          exact .inr ⟨.inr ⟨isOther, notDone.1⟩, notDone.2⟩
    obtain ⟨newStartNodes, returns, atEnd⟩ := Loop.foldlM_returns_upTo reached turn
      (show reached [] startNodes from fun node => by simp)
    refine ⟨newStartNodes, returns, fun node => ?_⟩
    rw [atEnd]
    exact or_iff_left fun both => both.2 both.1

end Restart

/-! ## Whole cycles -/

/-- The first node of the component of `node` that the search from the trigger meets. -/
structure IsEntry (graph : DirectedGraph) (order : List INode) (node entry : INode) : Prop where
  met : entry ∈ order
  related : graph.MutuallyReachable node entry
  first : ∀ other ∈ order, graph.MutuallyReachable node other → order.idxOf entry ≤ order.idxOf other

section Entry

variable {graph : DirectedGraph} {order : List INode} {u v entry : INode}

theorem MutuallyReachable.symm (related : graph.MutuallyReachable u v) : graph.MutuallyReachable v u :=
  ⟨related.2, related.1⟩

theorem MutuallyReachable.trans {w : INode} (first : graph.MutuallyReachable u v)
    (second : graph.MutuallyReachable v w) : graph.MutuallyReachable u w :=
  ⟨Relation.ReflTransGen.trans first.1 second.1, Relation.ReflTransGen.trans second.2 first.2⟩

theorem IsEntry.unique (isEntry : graph.IsEntry order u entry) {other : INode}
    (otherEntry : graph.IsEntry order u other) : entry = other := by
  have notAfter := isEntry.first other otherEntry.met otherEntry.related
  have notBefore := otherEntry.first entry isEntry.met isEntry.related
  exact (List.idxOf_inj isEntry.met).mp (Nat.le_antisymm notAfter notBefore)

variable {components : List (List INode)} (within : graph.WithinComponents components)

include within

theorem restart_related (met : u ∈ order) :
    graph.MutuallyReachable u (restart order (components.filter (·.length ≥ 1)) u) := by
  cases found : (components.filter (·.length ≥ 1)).find? (u ∈ ·) with
  | none =>
    rw [restart_of_none found]
    exact ⟨.refl, .refl⟩
  | some cycle =>
    have inside : u ∈ cycle := by simpa using List.find?_some found
    have member : cycle ∈ components := (List.mem_filter.mp (List.mem_of_find?_eq_some found)).1
    exact within.related cycle member u inside _ (restart_mem met found)

end Entry

section

variable {graph : DirectedGraph} {trigger : INode} {startNodes : List INode}

/-- Whatever components are found, a start node moves within its cycle. -/
theorem handleCycles_moves (built : graph.Built) (contains : graph.Contains trigger)
    (reachable : ∀ startNode ∈ startNodes, Relation.ReflTransGen graph.LeadsTo trigger startNode) :
    ∃ components order newStartNodes, graph.getStronglyConnectedComponents = .ok components ∧
      graph.WithinComponents components ∧ graph.Meets trigger order ∧
      graph.handleCycles startNodes trigger = .ok newStartNodes ∧
      (∀ node, node ∈ newStartNodes ↔
        ∃ startNode ∈ startNodes, node = restart order (components.filter (·.length ≥ 1)) startNode) ∧
      (∀ startNode ∈ startNodes, ∃ node ∈ newStartNodes, graph.MutuallyReachable startNode node) ∧
      ∀ node ∈ newStartNodes, Relation.ReflTransGen graph.LeadsTo trigger node := by
  obtain ⟨components, returned, within⟩ := getStronglyConnectedComponents_within built.wellFormed
  obtain ⟨order, meets⟩ := built.wellFormed.exists_meets contains
  have met := fun startNode isStart => meets.mem_of_reaches (reachable startNode isStart)
  obtain ⟨newStartNodes, returns, image⟩ :=
    handleCycles_image built.wellFormed contains meets returned within.disjoint met
  refine ⟨components, order, newStartNodes, returned, within, meets, returns, image, fun startNode isStart => ?_,
    fun node member => ?_⟩
  · exact ⟨_, (image _).mpr ⟨startNode, isStart, rfl⟩, restart_related within (met startNode isStart)⟩
  · obtain ⟨startNode, isStart, rfl⟩ := (image node).mp member
    exact (reachable startNode isStart).trans (restart_related within (met startNode isStart)).1

/-- A second call moves no start node any further. -/
theorem handleCycles_again (built : graph.Built) (contains : graph.Contains trigger)
    (reachable : ∀ startNode ∈ startNodes, Relation.ReflTransGen graph.LeadsTo trigger startNode) :
    ∃ newStartNodes again, graph.handleCycles startNodes trigger = .ok newStartNodes ∧
      graph.handleCycles newStartNodes trigger = .ok again ∧ ∀ node, node ∈ again ↔ node ∈ newStartNodes := by
  obtain ⟨components, order, newStartNodes, returned, within, meets, returns, image, _, reachableAgain⟩ :=
    handleCycles_moves built contains reachable
  have met := fun node member => meets.mem_of_reaches (reachableAgain node member)
  obtain ⟨again, returnsAgain, imageAgain⟩ :=
    handleCycles_image built.wellFormed contains meets returned within.disjoint met
  refine ⟨newStartNodes, again, returns, returnsAgain, fun node => ?_⟩
  have stays : ∀ u ∈ newStartNodes, restart order (components.filter (·.length ≥ 1)) u = u := by
    intro u member
    obtain ⟨startNode, isStart, rfl⟩ := (image u).mp member
    exact restart_restart (within.disjoint.sublist List.filter_sublist) (meets.mem_of_reaches (reachable _ isStart))
  rw [imageAgain]
  constructor
  · intro known
    obtain ⟨u, member, isPlace⟩ := known
    exact isPlace.trans (stays u member) ▸ member
  · exact fun member => ⟨node, member, (stays node member).symm⟩

end

namespace LoopBehindTrigger

def trigger : INode := { id := "2", name := "trigger", type := "trigger" }

def graph : DirectedGraph where
  nodes := [trigger, SimpleCycle.first, SimpleCycle.second].foldl
    (fun nodes node => nodes.set node.name node) ∅
  connections := [⟨trigger, SimpleCycle.first, .main, 0, 0⟩, ⟨SimpleCycle.first, SimpleCycle.second, .main, 0, 0⟩,
    ⟨SimpleCycle.second, SimpleCycle.first, .main, 0, 0⟩].foldl
      (fun connections connection => connections.set (makeKey connection) connection) ∅

theorem meets : graph.Meets trigger [trigger, SimpleCycle.first, SimpleCycle.second] := by
  have back : Run graph.children (.loop SimpleCycle.second [SimpleCycle.first])
      [trigger, SimpleCycle.first, SimpleCycle.second] ([] ++ .retreat SimpleCycle.second SimpleCycle.first :: [])
      [trigger, SimpleCycle.first, SimpleCycle.second] := .next (.seen (by decide)) .done
  have inLoop : Run graph.children (.loop SimpleCycle.first [SimpleCycle.second]) [trigger, SimpleCycle.first]
      _ [trigger, SimpleCycle.first, SimpleCycle.second] := .next (.fresh (by decide) back) .done
  have below : Run graph.children (.loop trigger [SimpleCycle.first]) [trigger]
      _ [trigger, SimpleCycle.first, SimpleCycle.second] := .next (.fresh (by decide) inLoop) .done
  exact ⟨_, .fresh (by decide) below⟩

theorem reachable : ∀ startNode ∈ [SimpleCycle.second], Relation.ReflTransGen graph.LeadsTo trigger startNode := by
  have toFirst : graph.LeadsTo trigger SimpleCycle.first := ⟨_, List.mem_cons_self, rfl, rfl⟩
  have toSecond : graph.LeadsTo SimpleCycle.first SimpleCycle.second :=
    ⟨⟨SimpleCycle.first, SimpleCycle.second, .main, 0, 0⟩, by decide, rfl, rfl⟩
  exact fun startNode isStart => List.mem_singleton.mp isStart ▸ .tail (.single toFirst) toSecond

theorem handleCycles_again_second : ∃ newStartNodes again,
    graph.handleCycles [SimpleCycle.second] trigger = .ok newStartNodes ∧
      graph.handleCycles newStartNodes trigger = .ok again ∧ ∀ node, node ∈ again ↔ node ∈ newStartNodes :=
  handleCycles_again (built_iff_wellFormed.mpr (by decide)) (by decide) reachable

end LoopBehindTrigger

namespace NestedLoops

def trigger : INode := { id := "3", name := "trigger", type := "trigger" }

def graph : DirectedGraph where
  nodes := [trigger, NestedCycles.root, NestedCycles.outer, NestedCycles.inner].foldl
    (fun nodes node => nodes.set node.name node) ∅
  connections := [⟨trigger, NestedCycles.root, .main, 0, 0⟩, ⟨NestedCycles.root, NestedCycles.outer, .main, 0, 0⟩,
    ⟨NestedCycles.outer, NestedCycles.inner, .main, 0, 0⟩, ⟨NestedCycles.inner, NestedCycles.outer, .main, 0, 0⟩,
    ⟨NestedCycles.outer, NestedCycles.root, .main, 1, 0⟩].foldl
      (fun connections connection => connections.set (makeKey connection) connection) ∅

end NestedLoops

end DirectedGraph

end N8n.Core
