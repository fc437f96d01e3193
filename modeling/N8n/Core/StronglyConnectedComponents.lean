import Mathlib.Data.List.Induction
import Mathlib.Data.List.TakeWhile
import N8n.Core.DirectedGraph
import N8n.Library.DepthFirst

/-! # Strongly connected components

`DirectedGraph.getStronglyConnectedComponents`: Tarjan's algorithm, except that a
component is popped as long as the low-link of the top of the stack equals the id
of the root.  A node whose low-link has not come down to the root's id therefore
stays on the stack for good.  `Tied` tells, from the order of the search alone,
which low-links come down; the returned sets are the components exactly when all
of them do.
-/

namespace N8n.Core

open DepthFirst

structure ComponentSearch where
  id : Nat := 0
  visited : List INode := []
  ids : OrderedMap INode Nat := ∅
  lowLinkValues : OrderedMap INode Nat := ∅
  /-- The top comes first. -/
  stack : List INode := []
  stronglyConnectedComponents : List (List INode) := []

namespace ComponentSearch

def enter (state : ComponentSearch) (node : INode) : ComponentSearch :=
  { state with
    visited := state.visited ++ [node]
    lowLinkValues := state.lowLinkValues.set node state.id
    ids := state.ids.set node state.id
    id := state.id + 1
    stack := node :: state.stack }

/-- If the child is on the stack, min the low id. -/
def retreat (state : ComponentSearch) (node child : INode) : Except Thrown ComponentSearch :=
  if child ∈ state.stack then
    match state.lowLinkValues.get? child, state.lowLinkValues.get? node with
    | none, _ => .error (.assertionError "childLowLinkValue !== undefined")
    | _, none => .error (.assertionError "ownLowLinkValue !== undefined")
    | some childLowLinkValue, some ownLowLinkValue =>
      .ok { state with
        lowLinkValues := state.lowLinkValues.set node (min childLowLinkValue ownLowLinkValue) }
  else .ok state

/-- The nodes popped when `node` is left: from the top, as long as the low id is the given one. -/
def popped (state : ComponentSearch) (ownId : Nat) : List INode :=
  state.stack.takeWhile fun next => state.lowLinkValues.get? next = some ownId

def leave (state : ComponentSearch) (node : INode) : Except Thrown ComponentSearch :=
  match state.ids.get? node, state.lowLinkValues.get? node with
  | none, _ => .error (.assertionError "ownId !== undefined")
  | _, none => .error (.assertionError "ownLowLinkValue !== undefined")
  | some ownId, some ownLowLinkValue =>
    if ownId = ownLowLinkValue then
      let scc := state.popped ownId
      .ok { state with
        stack := state.stack.dropWhile fun next => state.lowLinkValues.get? next = some ownId
        stronglyConnectedComponents := if scc.length > 0
          then state.stronglyConnectedComponents ++ [scc] else state.stronglyConnectedComponents }
    else .ok state

end ComponentSearch

namespace DirectedGraph

def followNode (graph : DirectedGraph) : Nat → INode → ComponentSearch → Except Thrown ComponentSearch
  | 0, _, _ => .error .rangeError
  | fuel + 1, node, state =>
    if node ∈ state.visited then .ok state
    else do
      let state := state.enter node
      let directChildren := (← graph.getDirectChildConnections node).map (·.to)
      let state ← directChildren.foldlM (fun state child => do
        let state ← graph.followNode fuel child state
        state.retreat node child) state
      state.leave node

def getStronglyConnectedComponents (graph : DirectedGraph) : Except Thrown (List (List INode)) := do
  let state ← graph.nodes.values.foldlM (fun state node => graph.followNode (graph.nodes.size + 1) node state)
    ({} : ComponentSearch)
  .ok state.stronglyConnectedComponents

def children (graph : DirectedGraph) (node : INode) : List INode :=
  (graph.connections.values.filter fun connection => connection.from = node).map (·.to)

end DirectedGraph

namespace ComponentSearch

/-! ## The algorithm as a fold over the events of a depth-first search -/

def step (state : ComponentSearch) : Event INode → Except Thrown ComponentSearch
  | .enter node => .ok (state.enter node)
  | .retreat node child => state.retreat node child
  | .leave node => state.leave node

theorem retreat_visited {state next : ComponentSearch} {node child : INode}
    (returns : state.retreat node child = .ok next) : next.visited = state.visited := by
  rw [retreat] at returns
  split at returns
  · split at returns
    · cases returns
    · cases returns
    · cases returns; rfl
  · cases returns; rfl

theorem leave_visited {state next : ComponentSearch} {node : INode}
    (returns : state.leave node = .ok next) : next.visited = state.visited := by
  rw [leave] at returns
  split at returns
  · cases returns
  · cases returns
  · split at returns
    · cases returns; rfl
    · cases returns; rfl

variable {children : INode → List INode}

theorem visited_of_run {call : Call INode} {visited visited' : List INode}
    {events : List (Event INode)} (run : Run children call visited events visited')
    {state final : ComponentSearch} (start : state.visited = visited)
    (returns : events.foldlM step state = .ok final) : final.visited = visited' := by
  induction run generalizing state final with
  | seen => cases returns; exact start
  | @fresh node visited visited' events _ _ ih =>
    rw [Loop.foldlM_cons_ok (rfl : step state (.enter node) = .ok (state.enter node))] at returns
    obtain ⟨below, belowReturns, leaves⟩ := Loop.foldlM_append_inv returns
    obtain ⟨left, leaveReturns, ends⟩ := Loop.foldlM_cons_inv leaves
    cases ends
    have belowVisited := ih (by rw [enter, start]) belowReturns
    exact (leave_visited leaveReturns).trans belowVisited
  | done => cases returns; exact start
  | next _ _ down further =>
    obtain ⟨first, firstReturns, later⟩ := Loop.foldlM_append_inv returns
    obtain ⟨second, retreats, rest⟩ := Loop.foldlM_cons_inv later
    exact further ((retreat_visited retreats).trans (down start firstReturns)) rest
  | finished => cases returns; exact start
  | root _ _ down further =>
    obtain ⟨first, firstReturns, later⟩ := Loop.foldlM_append_inv returns
    exact further (down start firstReturns) later

/-- What the code does for a call, next to the fold over the events of the call. -/
def Follows (graph : DirectedGraph) (fuel : Nat) (state : ComponentSearch) (events : List (Event INode)) :
    Call INode → Prop
  | .visit node => graph.followNode fuel node state = events.foldlM step state
  | .loop node remaining => remaining.foldlM (fun state child => do
      let state ← graph.followNode fuel child state
      state.retreat node child) state = events.foldlM step state
  | .roots remaining => remaining.foldlM (fun state node => graph.followNode fuel node state) state =
      events.foldlM step state

/-- The nodes a call looks at next are nodes of the graph. -/
def Starts (graph : DirectedGraph) : Call INode → Prop
  | .visit node => graph.Contains node
  | .loop _ remaining => ∀ child ∈ remaining, graph.Contains child
  | .roots remaining => ∀ node ∈ remaining, graph.Contains node

theorem children_contains {graph : DirectedGraph} (wellFormed : graph.WellFormed) {node child : INode}
    (isChild : child ∈ graph.children node) : graph.Contains child := by
  obtain ⟨connection, inside, rfl⟩ := List.mem_map.mp isChild
  exact wellFormed.toNode connection (List.mem_filter.mp inside).1

theorem follows_of_run {graph : DirectedGraph} (wellFormed : graph.WellFormed) {call : Call INode}
    {visited visited' : List INode} {events : List (Event INode)}
    (run : Run graph.children call visited events visited') : ∀ fuel (state : ComponentSearch),
      state.visited = visited → Starts graph call →
      (Traversal.unmarked graph.nodes.values visited).length < fuel → Follows graph fuel state events call := by
  induction run with
  | seen member =>
    intro fuel state start _ enough
    obtain ⟨fuel, rfl⟩ := Nat.exists_eq_succ_of_ne_zero (Nat.ne_of_gt (Nat.zero_lt_of_lt enough))
    exact if_pos (start ▸ member)
  | @fresh node visited visited' events unvisited below ih =>
    intro fuel state start contains enough
    obtain ⟨fuel, rfl⟩ := Nat.exists_eq_succ_of_ne_zero (Nat.ne_of_gt (Nat.zero_lt_of_lt enough))
    have fewer := Traversal.length_unmarked_lt (wellFormed.contains_iff.mp contains) unvisited
    have loop := ih fuel (state.enter node) (by rw [enter, start])
      (fun child isChild => children_contains wellFormed isChild) (by omega)
    have found : graph.getDirectChildConnections node =
        .ok (graph.connections.values.filter fun connection => connection.from = node) := if_pos contains
    show graph.followNode (fuel + 1) node state = _
    rw [DirectedGraph.followNode, if_neg (start ▸ unvisited), found,
      Loop.foldlM_cons_ok (rfl : step state (.enter node) = .ok (state.enter node)), List.foldlM_append,
      ← show _ = events.foldlM step (state.enter node) from loop]
    -- The code leaves the node after the loop, as the last event does.
    have leaves : [Event.leave node].foldlM step = fun state : ComponentSearch => state.leave node := by
      funext state
      simp [step]
    rw [leaves]
    rfl
  | done => intro fuel state _ _ _; rfl
  | @next node child remaining visited visited₁ visited₂ first rest down further visits loops =>
    intro fuel state start contains enough
    have downFollows : graph.followNode fuel child state = first.foldlM step state :=
      visits fuel state start (contains child List.mem_cons_self) enough
    -- The loop over the children, with its first turn taken out.
    have unfolded : (child :: remaining).foldlM (fun state child => do
        let state ← graph.followNode fuel child state
        state.retreat node child) state = ((first.foldlM step state >>= fun state =>
          state.retreat node child) >>= fun state => remaining.foldlM (fun state child => do
            let state ← graph.followNode fuel child state
            state.retreat node child) state) := by
      rw [← downFollows]; rfl
    show (child :: remaining).foldlM _ state = _
    rw [unfolded]
    cases firstReturns : first.foldlM step state with
    | error thrown => rw [Loop.foldlM_append_error firstReturns]; rfl
    | ok second =>
      rw [Loop.foldlM_append_ok firstReturns]
      show (second.retreat node child >>= _) = (Event.retreat node child :: rest).foldlM step second
      cases retreats : second.retreat node child with
      | error thrown => rw [Loop.foldlM_cons_error retreats]; rfl
      | ok third =>
        rw [Loop.foldlM_cons_ok retreats]
        have thirdVisited := (retreat_visited retreats).trans (visited_of_run down start firstReturns)
        have fewer := Traversal.length_unmarked_le graph.nodes.values down.isPrefix.subset
        exact loops fuel third thirdVisited
          (fun other member => contains other (List.mem_cons_of_mem _ member)) (by omega)
  | finished => intro fuel state _ _ _; rfl
  | @root node remaining visited visited₁ visited₂ first rest down further visits loops =>
    intro fuel state start contains enough
    have downFollows : graph.followNode fuel node state = first.foldlM step state :=
      visits fuel state start (contains node List.mem_cons_self) enough
    have unfolded : (node :: remaining).foldlM (fun state node => graph.followNode fuel node state) state =
        (first.foldlM step state >>= fun state =>
          remaining.foldlM (fun state node => graph.followNode fuel node state) state) := by
      rw [← downFollows]; rfl
    show (node :: remaining).foldlM _ state = _
    rw [unfolded]
    cases firstReturns : first.foldlM step state with
    | error thrown => rw [Loop.foldlM_append_error firstReturns]; rfl
    | ok second =>
      rw [Loop.foldlM_append_ok firstReturns]
      have fewer := Traversal.length_unmarked_le graph.nodes.values down.isPrefix.subset
      exact loops fuel second (visited_of_run down start firstReturns)
        (fun other member => contains other (List.mem_cons_of_mem _ member)) (by omega)

/-! ## Low-links that come down to the root -/

/-- The node of its component that the search enters first. -/
def First (children : INode → List INode) (order : List INode) (node : INode) : Prop :=
  ∀ other ∈ order, Mutual children other node → order.idxOf node ≤ order.idxOf other

/-- `TiedBy` with the latest step back first. -/
def TiedBy (children : INode → List INode) (order : List INode) : List (INode × INode) → INode → Prop
  | [], node => First children order node
  | (source, target) :: earlier, node => TiedBy children order earlier node ∨
      node = source ∧ Mutual children target source ∧ TiedBy children order earlier target

/-- After the steps of `past` the node is the first of its component, or the search has come back to
it from a node of its component that was tied already. -/
def Tied (children : INode → List INode) (order : List INode) (past : List (INode × INode)) (node : INode) :
    Prop :=
  TiedBy children order past.reverse node

theorem tied_snoc {order : List INode} {past : List (INode × INode)}
    {source target node : INode} : Tied children order (past ++ [(source, target)]) node ↔
      Tied children order past node ∨
        node = source ∧ Mutual children target source ∧ Tied children order past target := by
  rw [Tied, List.reverse_append]
  rfl

theorem Tied.of_first {order : List INode} {node : INode}
    (first : First children order node) (past : List (INode × INode)) : Tied children order past node := by
  induction past using List.reverseRecOn with
  | nil => exact first
  | append_singleton past step ih => exact tied_snoc.mpr (.inl ih)

section Invariant

variable {children : INode → List INode} {order visited gray : List INode}
  {past : List (INode × INode)} {state next : ComponentSearch} {node child : INode}

def lowLink (state : ComponentSearch) (node : INode) : Nat := (state.lowLinkValues.get? node).getD 0

/-- What holds of the search state whether or not low-links come down. -/
structure Consistent (order visited : List INode) (state : ComponentSearch) : Prop where
  visited_eq : state.visited = visited
  id_eq : state.id = visited.length
  ids : ∀ node ∈ visited, state.ids.get? node = some (order.idxOf node)
  low : ∀ node ∈ visited, state.lowLinkValues.get? node = some (state.lowLink node)
  stackVisited : ∀ node ∈ state.stack, node ∈ visited
  stackDistinct : state.stack.Nodup
  emitted : ∀ scc ∈ state.stronglyConnectedComponents, ∀ node ∈ scc, node ∈ visited ∧ node ∉ state.stack
  disjoint : state.stronglyConnectedComponents.Pairwise List.Disjoint
  nonempty : ∀ scc ∈ state.stronglyConnectedComponents, scc ≠ []

theorem consistent_start : Consistent order [] {} := by
  constructor <;> simp

theorem lowLink_enter (state : ComponentSearch) (node other : INode) :
    (state.enter node).lowLink other = if other = node then state.id else state.lowLink other := by
  simp only [lowLink, enter, OrderedMap.get?_set]
  split <;> rfl

theorem Consistent.lowLink_entered (consistent : Consistent order visited state)
    (rank : order.idxOf node = visited.length) : (state.enter node).lowLink node = order.idxOf node := by
  rw [lowLink_enter, if_pos rfl, consistent.id_eq, rank]

variable {other : INode}

theorem lowLink_enter_of_visited (state : ComponentSearch) (unvisited : node ∉ visited) (member : other ∈ visited) :
    (state.enter node).lowLink other = state.lowLink other := by
  have notNode : other ≠ node := fun same => unvisited (same ▸ member)
  rw [lowLink_enter, if_neg notNode]

theorem Consistent.enter (consistent : Consistent order visited state)
    (rank : order.idxOf node = visited.length) (unvisited : node ∉ visited) :
    Consistent order (visited ++ [node]) (state.enter node) := by
  have notStacked : node ∉ state.stack := fun member => unvisited (consistent.stackVisited node member)
  have emitted : ∀ scc ∈ state.stronglyConnectedComponents, ∀ other ∈ scc, other ∈ visited ∧
      other ∉ node :: state.stack := by
    intro scc member other inside
    obtain ⟨otherVisited, notOnStack⟩ := consistent.emitted scc member other inside
    refine ⟨otherVisited, ?_⟩
    simp only [List.mem_cons, not_or]
    exact ⟨fun same => unvisited (same ▸ otherVisited), notOnStack⟩
  refine ⟨?_, ?_, ?_, ?_, ?_, ?_, ?_, consistent.disjoint, consistent.nonempty⟩
  · rw [ComponentSearch.enter, consistent.visited_eq]
  · simp [ComponentSearch.enter, consistent.id_eq]
  · intro other member
    simp only [ComponentSearch.enter, OrderedMap.get?_set]
    by_cases same : other = node
    · rw [if_pos same, same, consistent.id_eq, rank]
    · rw [if_neg same]
      exact consistent.ids other (by simpa [same] using member)
  · intro other member
    rw [lowLink_enter]
    simp only [ComponentSearch.enter, OrderedMap.get?_set]
    by_cases same : other = node
    · rw [if_pos same, if_pos same]
    · rw [if_neg same, if_neg same]
      exact consistent.low other (by simpa [same] using member)
  · intro other onStack
    cases List.mem_cons.mp onStack with
    | inl isNode => simp [isNode]
    | inr old => exact List.mem_append_left _ (consistent.stackVisited other old)
  · exact List.nodup_cons.mpr ⟨notStacked, consistent.stackDistinct⟩
  · intro scc member other inside
    obtain ⟨otherVisited, notOnStack⟩ := emitted scc member other inside
    exact ⟨List.mem_append_left _ otherVisited, notOnStack⟩

/-- Coming back from `child` changes the low-link of `node` only, if the child is on the stack. -/
theorem Consistent.retreat_eq (consistent : Consistent order visited state) (nodeVisited : node ∈ visited)
    (childVisited : child ∈ visited) : state.retreat node child = .ok (if child ∈ state.stack then
      { state with lowLinkValues :=
          state.lowLinkValues.set node (min (state.lowLink child) (state.lowLink node)) } else state) := by
  rw [retreat, consistent.low child childVisited, consistent.low node nodeVisited]
  split <;> rfl

theorem lowLink_retreat (consistent : Consistent order visited state) (nodeVisited : node ∈ visited)
    (childVisited : child ∈ visited) (returns : state.retreat node child = .ok next) (other : INode) :
    next.lowLink other = if other = node ∧ child ∈ state.stack
      then min (state.lowLink child) (state.lowLink node) else state.lowLink other := by
  rw [consistent.retreat_eq nodeVisited childVisited] at returns
  obtain rfl := Except.ok.inj returns
  by_cases onStack : child ∈ state.stack
  · rw [if_pos onStack]
    simp only [lowLink, OrderedMap.get?_set, onStack, and_true]
    split <;> rfl
  · rw [if_neg onStack]
    simp [onStack]

theorem Consistent.retreat (consistent : Consistent order visited state) (nodeVisited : node ∈ visited)
    (childVisited : child ∈ visited) :
    ∃ next, state.retreat node child = .ok next ∧ Consistent order visited next ∧
      next.stack = state.stack ∧
        next.stronglyConnectedComponents = state.stronglyConnectedComponents := by
  refine ⟨_, consistent.retreat_eq nodeVisited childVisited, ?_⟩
  by_cases onStack : child ∈ state.stack
  · rw [if_pos onStack]
    refine ⟨⟨consistent.visited_eq, consistent.id_eq, consistent.ids, ?_, consistent.stackVisited,
      consistent.stackDistinct, consistent.emitted, consistent.disjoint, consistent.nonempty⟩, rfl, rfl⟩
    intro other member
    simp only [lowLink, OrderedMap.get?_set]
    by_cases same : other = node
    · rw [if_pos same]; rfl
    · rw [if_neg same]; exact consistent.low other member
  · rw [if_neg onStack]
    exact ⟨consistent, rfl, rfl⟩

/-- Leaving `node` pops, if its low-link is still its id, and changes nothing otherwise. -/
theorem Consistent.leave_eq (consistent : Consistent order visited state) (nodeVisited : node ∈ visited) :
    state.leave node = .ok (if order.idxOf node = state.lowLink node then
      { state with
        stack := state.stack.dropWhile fun next =>
          state.lowLinkValues.get? next = some (order.idxOf node)
        stronglyConnectedComponents := if (state.popped (order.idxOf node)).length > 0
          then state.stronglyConnectedComponents ++ [state.popped (order.idxOf node)]
          else state.stronglyConnectedComponents } else state) := by
  rw [leave, consistent.ids node nodeVisited, consistent.low node nodeVisited]
  dsimp only
  split <;> rfl

theorem popped_append (state : ComponentSearch) (ownId : Nat) :
    state.popped ownId ++ state.stack.dropWhile (fun next => state.lowLinkValues.get? next = some ownId) =
      state.stack :=
  List.takeWhile_append_dropWhile

theorem mem_kept (consistent : Consistent order visited state) {ownId : Nat} (onStack : other ∈ state.stack)
    (different : state.lowLink other ≠ ownId) :
    other ∈ state.stack.dropWhile (fun next => state.lowLinkValues.get? next = some ownId) := by
  rw [← popped_append state ownId, List.mem_append] at onStack
  refine onStack.resolve_left fun inPopped => ?_
  have low : state.lowLinkValues.get? other = some ownId := by
    rw [popped] at inPopped
    simpa using List.mem_takeWhile_imp inPopped
  have stacked : other ∈ state.stack := (List.takeWhile_prefix _).subset inPopped
  rw [consistent.low other (consistent.stackVisited other stacked)] at low
  exact different (Option.some.inj low)

theorem Consistent.leave (consistent : Consistent order visited state) (nodeVisited : node ∈ visited) :
    ∃ next, state.leave node = .ok next ∧ Consistent order visited next ∧
      (∀ other, next.lowLink other = state.lowLink other) ∧
        ∀ other ∈ state.stack, state.lowLink other ≠ order.idxOf node → other ∈ next.stack := by
  refine ⟨_, consistent.leave_eq nodeVisited, ?_⟩
  by_cases isRoot : order.idxOf node = state.lowLink node
  · rw [if_pos isRoot]
    have split := popped_append state (order.idxOf node)
    have distinct := consistent.stackDistinct
    rw [← split, List.nodup_append] at distinct
    have poppedOnStack : ∀ other ∈ state.popped (order.idxOf node), other ∈ state.stack :=
      fun other inPopped => (List.takeWhile_prefix _).subset inPopped
    have keptOnStack : ∀ other ∈ state.stack.dropWhile (fun next =>
        state.lowLinkValues.get? next = some (order.idxOf node)), other ∈ state.stack :=
      fun other inKept => (List.dropWhile_suffix _).subset inKept
    have emittedStay : ∀ scc ∈ state.stronglyConnectedComponents, ∀ other ∈ scc,
        other ∈ visited ∧ other ∉ state.stack.dropWhile fun next =>
          state.lowLinkValues.get? next = some (order.idxOf node) := by
      intro scc member other inside
      obtain ⟨otherVisited, notOnStack⟩ := consistent.emitted scc member other inside
      exact ⟨otherVisited, fun inKept => notOnStack (keptOnStack other inKept)⟩
    refine ⟨⟨consistent.visited_eq, consistent.id_eq, consistent.ids, consistent.low, ?_, ?_, ?_, ?_, ?_⟩,
      fun _ => rfl, fun other onStack different => mem_kept consistent onStack different⟩
    · exact fun other inKept => consistent.stackVisited other (keptOnStack other inKept)
    · exact distinct.2.1
    · intro scc member other inside
      dsimp only at member
      split at member
      · cases List.mem_append.mp member with
        | inl old => exact emittedStay scc old other inside
        | inr new =>
          rw [List.mem_singleton.mp new] at inside
          exact ⟨consistent.stackVisited other (poppedOnStack other inside),
            fun inKept => distinct.2.2 other inside other inKept rfl⟩
      · exact emittedStay scc member other inside
    · dsimp only
      split
      · refine List.pairwise_append.mpr ⟨consistent.disjoint, List.pairwise_singleton _ _, ?_⟩
        intro scc member new isNew other inside inNew
        rw [List.mem_singleton.mp isNew] at inNew
        exact (consistent.emitted scc member other inside).2 (poppedOnStack other inNew)
      · exact consistent.disjoint
    · intro scc member
      dsimp only at member
      split at member
      · rename_i somePopped
        cases List.mem_append.mp member with
        | inl old => exact consistent.nonempty scc old
        | inr new => exact List.mem_singleton.mp new ▸ List.ne_nil_of_length_pos somePopped
      · exact consistent.nonempty scc member
  · rw [if_neg isRoot]
    exact ⟨consistent, fun _ => rfl, fun other onStack _ => onStack⟩

/-- A node that was left on the stack and can never be popped: its low-link is the id of a node that
has been left. -/
def Stuck (children : INode → List INode) (order visited gray : List INode) (past : List (INode × INode))
    (state : ComponentSearch) : Prop :=
  ∃ stuck ∈ state.stack, ∃ low ∈ visited, stuck ∉ gray ∧ low ∉ gray ∧
    state.lowLink stuck = order.idxOf low ∧ ¬ Tied children order past stuck

theorem Stuck.enter (stuck : Stuck children order visited gray past state)
    (consistent : Consistent order visited state) (unvisited : node ∉ visited) :
    Stuck children order (visited ++ [node]) (node :: gray) past (state.enter node) := by
  obtain ⟨stuck, onStack, low, lowVisited, notGray, lowNotGray, low_eq, untied⟩ := stuck
  have different : ∀ other ∈ visited, other ≠ node := fun other member same => unvisited (same ▸ member)
  have stuckOther := different stuck (consistent.stackVisited stuck onStack)
  refine ⟨stuck, List.mem_cons_of_mem _ onStack, low, List.mem_append_left _ lowVisited, ?_, ?_, ?_, untied⟩
  · simp [stuckOther, notGray]
  · simp [different low lowVisited, lowNotGray]
  · rw [lowLink_enter, if_neg stuckOther, low_eq]

theorem Stuck.retreat (stuck : Stuck children order visited gray past state)
    (consistent : Consistent order visited state) (nodeGray : node ∈ gray) (nodeVisited : node ∈ visited)
    (childVisited : child ∈ visited) (returns : state.retreat node child = .ok next) :
    Stuck children order visited gray (past ++ [(node, child)]) next := by
  obtain ⟨stuck, onStack, low, lowVisited, notGray, lowNotGray, low_eq, untied⟩ := stuck
  have different : stuck ≠ node := fun same => notGray (same ▸ nodeGray)
  obtain ⟨next', returns', _, sameStack, _⟩ := consistent.retreat nodeVisited childVisited
  obtain rfl : next = next' := Except.ok.inj (returns.symm.trans returns')
  refine ⟨stuck, sameStack ▸ onStack, low, lowVisited, notGray, lowNotGray, ?_, ?_⟩
  · rw [lowLink_retreat consistent nodeVisited childVisited returns, if_neg (fun same => different same.1), low_eq]
  · rw [tied_snoc]
    exact fun tied => tied.elim untied fun retreated => different retreated.1

theorem Stuck.leave (stuck : Stuck children order visited (node :: gray) past state)
    (explored : Explored children order visited (node :: gray) past)
    (consistent : Consistent order visited state) (returns : state.leave node = .ok next) :
    Stuck children order visited gray past next := by
  obtain ⟨stuck, onStack, low, lowVisited, notGray, lowNotGray, low_eq, untied⟩ := stuck
  simp only [List.mem_cons, not_or] at notGray lowNotGray
  obtain ⟨next', returns', _, sameLow, kept⟩ :=
    consistent.leave (explored.grayVisited node List.mem_cons_self)
  obtain rfl : next = next' := Except.ok.inj (returns.symm.trans returns')
  have notOwn : state.lowLink stuck ≠ order.idxOf node := by
    rw [low_eq]
    exact fun same => lowNotGray.1 (explored.idxOf_inj lowVisited same)
  exact ⟨stuck, kept stuck onStack notOwn, low, lowVisited, notGray.2, lowNotGray.2,
    (sameLow stuck).trans low_eq, untied⟩

/-- The calls that do not touch the low-link of `node`. -/
def Spares (node : INode) : Call INode → Prop
  | .loop current _ => node ≠ current
  | _ => True

variable {call : Call INode} {visited' : List INode} {events : List (Event INode)}

/-- Every run returns, and a stuck node stays stuck. -/
theorem consistent_run (run : Run children call visited events visited') (isPrefix : visited' <+: order)
    (explored : Explored children order visited gray past) (fits : call.Fits children gray past)
    (consistent : Consistent order visited state) :
    ∃ next, events.foldlM step state = .ok next ∧ Consistent order visited' next ∧
      (∀ other ∈ visited, Spares other call → next.lowLink other = state.lowLink other) ∧
      (Stuck children order visited gray past state →
        Stuck children order visited' gray (past ++ retreats events) next) := by
  induction run generalizing gray past state with
  | seen =>
    exact ⟨state, rfl, consistent, fun _ _ _ => rfl, fun stuck => by simpa using stuck⟩
  | @fresh node visited visited' events unvisited below ih =>
    have enteredPrefix := below.isPrefix.trans isPrefix
    have entered := explored.enter enteredPrefix unvisited fits
    have rank := idxOf_entered enteredPrefix explored.distinct
    obtain ⟨looped, loopReturns, loopConsistent, loopSpares, loopStuck⟩ :=
      ih isPrefix entered (.below past) (consistent.enter rank unvisited)
    obtain ⟨exploredBelow, _⟩ := below.explored isPrefix entered (.below past)
    obtain ⟨left, leaveReturns, leftConsistent, sameLow, _⟩ :=
      loopConsistent.leave (exploredBelow.grayVisited node List.mem_cons_self)
    -- Entering and leaving are no steps back.
    have past_eq : retreats (.enter node :: (events ++ [.leave node])) = retreats events := by simp
    rw [past_eq]
    refine ⟨left, ?_, leftConsistent, fun other member _ => ?_, fun stuck => ?_⟩
    · rw [Loop.foldlM_cons_ok (rfl : step state (.enter node) = .ok (state.enter node)),
        Loop.foldlM_append_ok loopReturns, Loop.foldlM_cons_ok (show step looped (.leave node) = _ from leaveReturns)]
      rfl
    · have notNode : other ≠ node := fun same => unvisited (same ▸ member)
      rw [sameLow, loopSpares other (List.mem_append_left _ member) notNode, lowLink_enter, if_neg notNode]
    · exact (loopStuck (stuck.enter consistent unvisited)).leave exploredBelow loopConsistent leaveReturns
  | done => exact ⟨state, rfl, consistent, fun _ _ _ => rfl, fun stuck => by simpa using stuck⟩
  | @next node child remaining visited visited₁ visited₂ first rest down further visits loops =>
    have downPrefix := further.isPrefix.trans isPrefix
    have nodeGray : node ∈ gray := List.mem_of_mem_head? fits.1
    obtain ⟨second, firstReturns, secondConsistent, secondSpares, secondStuck⟩ :=
      visits downPrefix explored fits.child consistent
    obtain ⟨exploredDown, _⟩ := down.explored downPrefix explored fits.child
    have nodeVisited := exploredDown.grayVisited node nodeGray
    obtain ⟨third, retreatReturns, thirdConsistent, _, _⟩ :=
      secondConsistent.retreat nodeVisited down.visits
    obtain ⟨final, restReturns, finalConsistent, finalSpares, finalStuck⟩ := loops isPrefix
      (exploredDown.retreat nodeVisited down.visits) (fits.rest _) thirdConsistent
    have past_eq : past ++ retreats (first ++ .retreat node child :: rest) =
        past ++ retreats first ++ [(node, child)] ++ retreats rest := by simp
    rw [past_eq]
    refine ⟨final, ?_, finalConsistent, fun other member spared => ?_, fun stuck => ?_⟩
    · rw [Loop.foldlM_append_ok firstReturns,
        Loop.foldlM_cons_ok (show step second (.retreat node child) = _ from retreatReturns)]
      exact restReturns
    · have notNode : other ≠ node := spared
      rw [finalSpares other (down.isPrefix.subset member) spared,
        lowLink_retreat secondConsistent nodeVisited down.visits retreatReturns,
        if_neg (fun both => notNode both.1), secondSpares other member trivial]
    · exact finalStuck
        ((secondStuck stuck).retreat secondConsistent nodeGray nodeVisited down.visits retreatReturns)
  | finished => exact ⟨state, rfl, consistent, fun _ _ _ => rfl, fun stuck => by simpa using stuck⟩
  | root down further visits loops =>
    obtain rfl : gray = [] := fits
    have downPrefix := further.isPrefix.trans isPrefix
    obtain ⟨second, firstReturns, secondConsistent, secondSpares, secondStuck⟩ :=
      visits downPrefix explored (by simp [Call.Fits]) consistent
    obtain ⟨exploredDown, _⟩ := down.explored downPrefix explored (by simp [Call.Fits])
    obtain ⟨final, restReturns, finalConsistent, finalSpares, finalStuck⟩ :=
      loops isPrefix exploredDown rfl secondConsistent
    rw [retreats_append, ← List.append_assoc]
    refine ⟨final, ?_, finalConsistent, fun other member _ => ?_, fun stuck => finalStuck (secondStuck stuck)⟩
    · rw [Loop.foldlM_append_ok firstReturns]; exact restReturns
    · rw [finalSpares other (down.isPrefix.subset member) trivial, secondSpares other member trivial]

section Parts

variable {visited₁ visited' : List INode} {first rest events : List (Event INode)}

theorem split_returns {call : Call INode} (down : Run children call visited first visited₁)
    (isPrefix : visited₁ <+: order) (explored : Explored children order visited gray past)
    (fits : call.Fits children gray past) (consistent : Consistent order visited state)
    (returns : (first ++ rest).foldlM step state = .ok next) :
    ∃ second, first.foldlM step state = .ok second ∧ Consistent order visited₁ second ∧
      Explored children order visited₁ gray (past ++ retreats first) ∧
      (∀ other ∈ visited, Spares other call → second.lowLink other = state.lowLink other) ∧
      rest.foldlM step second = .ok next := by
  obtain ⟨second, firstReturns, restReturns⟩ := Loop.foldlM_append_inv returns
  obtain ⟨second', firstReturns', secondConsistent, spares, _⟩ :=
    consistent_run down isPrefix explored fits consistent
  obtain rfl : second = second' := Except.ok.inj (firstReturns.symm.trans firstReturns')
  exact ⟨second, firstReturns, secondConsistent, (down.explored isPrefix explored fits).1, spares, restReturns⟩

theorem retreat_returns (consistent : Consistent order visited state) (nodeVisited : node ∈ visited)
    (childVisited : child ∈ visited) (returns : (.retreat node child :: rest).foldlM step state = .ok next) :
    ∃ third, state.retreat node child = .ok third ∧ Consistent order visited third ∧
      rest.foldlM step third = .ok next := by
  obtain ⟨third, retreatReturns, restReturns⟩ := Loop.foldlM_cons_inv returns
  obtain ⟨third', retreatReturns', thirdConsistent, _⟩ := consistent.retreat nodeVisited childVisited
  obtain rfl : third = third' := Except.ok.inj
    ((show state.retreat node child = .ok third from retreatReturns).symm.trans retreatReturns')
  exact ⟨third, retreatReturns', thirdConsistent, restReturns⟩

theorem fresh_returns (unvisited : node ∉ visited)
    (below : Run children (.loop node (children node)) (visited ++ [node]) events visited')
    (isPrefix : visited' <+: order) (explored : Explored children order visited gray past)
    (fits : (Call.visit node).Fits children gray past) (consistent : Consistent order visited state)
    (returns : (.enter node :: (events ++ [.leave node])).foldlM step state = .ok next) :
    Explored children order (visited ++ [node]) (node :: gray) past ∧
      Consistent order (visited ++ [node]) (state.enter node) ∧
      ∃ looped, events.foldlM step (state.enter node) = .ok looped ∧ Consistent order visited' looped ∧
        looped.leave node = .ok next := by
  have enteredPrefix := below.isPrefix.trans isPrefix
  have entered := explored.enter enteredPrefix unvisited fits
  have enteredConsistent := consistent.enter (idxOf_entered enteredPrefix explored.distinct) unvisited
  rw [Loop.foldlM_cons_ok (rfl : step state (.enter node) = .ok (state.enter node))] at returns
  obtain ⟨looped, loopReturns, loopConsistent, _, _, leaves⟩ :=
    split_returns below isPrefix entered (.below past) enteredConsistent returns
  obtain ⟨left, leaveReturns, ends⟩ := Loop.foldlM_cons_inv leaves
  cases ends
  exact ⟨entered, enteredConsistent, looped, loopReturns, loopConsistent, leaveReturns⟩

end Parts

/-! ### What is emitted stays within a component -/

/-- Low-links go up along paths, whether or not they come down to the root. -/
structure Linked (children : INode → List INode) (order visited : List INode) (state : ComponentSearch) :
    Prop where
  lowReached : ∀ node ∈ visited, ∃ low ∈ visited, Reaches children node low ∧
    state.lowLink node = order.idxOf low
  lowOwn : ∀ node ∈ visited, state.lowLink node ≤ order.idxOf node
  related : ∀ scc ∈ state.stronglyConnectedComponents, ∀ u ∈ scc, ∀ v ∈ scc, Mutual children u v

theorem linked_start : Linked children order [] {} := by
  constructor <;> simp

theorem Linked.enter (linked : Linked children order visited state)
    (consistent : Consistent order visited state) (rank : order.idxOf node = visited.length)
    (unvisited : node ∉ visited) : Linked children order (visited ++ [node]) (state.enter node) := by
  have ownLow : (state.enter node).lowLink node = order.idxOf node := consistent.lowLink_entered rank
  have oldLow : ∀ other ∈ visited, (state.enter node).lowLink other = state.lowLink other :=
    fun other member => lowLink_enter_of_visited state unvisited member
  have oldOrNew : ∀ other, other ∈ visited ++ [node] → other ∈ visited ∨ other = node := by simp
  refine ⟨fun other member => ?_, fun other member => ?_, linked.related⟩
  · cases oldOrNew other member with
    | inl old =>
      obtain ⟨low, lowVisited, reaches, low_eq⟩ := linked.lowReached other old
      exact ⟨low, List.mem_append_left _ lowVisited, reaches, (oldLow other old).trans low_eq⟩
    | inr isNode => exact ⟨other, member, .refl, isNode ▸ ownLow⟩
  · cases oldOrNew other member with
    | inl old => rw [oldLow other old]; exact linked.lowOwn other old
    | inr isNode => exact Nat.le_of_eq (isNode ▸ ownLow)

theorem Linked.retreat (linked : Linked children order visited state)
    (consistent : Consistent order visited state) (isChild : child ∈ children node)
    (nodeVisited : node ∈ visited) (childVisited : child ∈ visited)
    (returns : state.retreat node child = .ok next) : Linked children order visited next := by
  obtain ⟨next', returns', _, _, sameComponents⟩ := consistent.retreat nodeVisited childVisited
  obtain rfl : next = next' := Except.ok.inj (returns.symm.trans returns')
  have low := lowLink_retreat consistent nodeVisited childVisited returns
  refine ⟨fun other member => ?_, fun other member => ?_, by rw [sameComponents]; exact linked.related⟩
  · rw [low]
    split
    · rename_i taken
      obtain ⟨rfl, _⟩ := taken
      cases Nat.le_total (state.lowLink child) (state.lowLink other) with
      | inl childLower =>
        obtain ⟨target, targetVisited, reaches, low_eq⟩ := linked.lowReached child childVisited
        exact ⟨target, targetVisited, .head isChild reaches, (Nat.min_eq_left childLower).trans low_eq⟩
      | inr ownLower =>
        rw [Nat.min_eq_right ownLower]
        exact linked.lowReached other member
    · exact linked.lowReached other member
  · have own := linked.lowOwn other member
    rw [low]
    split
    · rename_i taken
      obtain ⟨rfl, _⟩ := taken
      exact Nat.le_trans (Nat.min_le_right _ _) own
    · exact own

theorem Linked.leave (linked : Linked children order visited state)
    (consistent : Consistent order visited state)
    (explored : Explored children order visited (node :: gray) past)
    (returns : state.leave node = .ok next) : Linked children order visited next := by
  have nodeVisited := explored.grayVisited node List.mem_cons_self
  rw [consistent.leave_eq nodeVisited] at returns
  obtain rfl := Except.ok.inj returns
  by_cases isRoot : order.idxOf node = state.lowLink node
  · rw [if_pos isRoot]
    refine ⟨linked.lowReached, linked.lowOwn, ?_⟩
    -- a popped node reaches `node`, its low-link, and has been entered after it
    have relatedToNode : ∀ other ∈ state.popped (order.idxOf node), Mutual children node other := by
      intro other inPopped
      have onStack := (List.takeWhile_prefix _).subset inPopped
      have otherVisited := consistent.stackVisited other onStack
      rw [popped] at inPopped
      have pops : state.lowLinkValues.get? other = some (order.idxOf node) := by
        simpa using List.mem_takeWhile_imp inPopped
      have low_eq : state.lowLink other = order.idxOf node :=
        Option.some.inj ((consistent.low other otherVisited).symm.trans pops)
      obtain ⟨low, lowVisited, reaches, same⟩ := linked.lowReached other otherVisited
      obtain rfl : node = low := explored.idxOf_inj nodeVisited (low_eq.symm.trans same)
      have notBefore := linked.lowOwn other otherVisited
      rw [low_eq] at notBefore
      exact ⟨explored.descends node List.mem_cons_self other otherVisited notBefore, reaches⟩
    intro scc member
    dsimp only at member
    split at member
    · cases List.mem_append.mp member with
      | inl old => exact linked.related scc old
      | inr new =>
        rw [List.mem_singleton.mp new]
        exact fun u inU v inV => (relatedToNode u inU).symm.trans (relatedToNode v inV)
    · exact linked.related scc member
  · rw [if_neg isRoot]
    exact linked

theorem linked_run (run : Run children call visited events visited') (isPrefix : visited' <+: order)
    (explored : Explored children order visited gray past) (fits : call.Fits children gray past)
    (consistent : Consistent order visited state) (linked : Linked children order visited state)
    (returns : events.foldlM step state = .ok next) : Linked children order visited' next := by
  induction run generalizing gray past state next with
  | seen => cases returns; exact linked
  | @fresh node visited visited' events unvisited below ih =>
    obtain ⟨entered, enteredConsistent, looped, loopReturns, loopConsistent, leaveReturns⟩ :=
      fresh_returns unvisited below isPrefix explored fits consistent returns
    have rank := idxOf_entered (below.isPrefix.trans isPrefix) explored.distinct
    have loopLinked := ih isPrefix entered (.below past) enteredConsistent
      (linked.enter consistent rank unvisited) loopReturns
    exact loopLinked.leave loopConsistent (below.explored isPrefix entered (.below past)).1 leaveReturns
  | done => cases returns; exact linked
  | @next node child remaining visited visited₁ visited₂ first rest down further visits loops =>
    have downPrefix := further.isPrefix.trans isPrefix
    have nodeGray : node ∈ gray := List.mem_of_mem_head? fits.1
    obtain ⟨second, firstReturns, secondConsistent, exploredDown, _, later⟩ :=
      split_returns down downPrefix explored fits.child consistent returns
    have nodeVisited := exploredDown.grayVisited node nodeGray
    obtain ⟨third, retreatReturns, thirdConsistent, restReturns⟩ :=
      retreat_returns secondConsistent nodeVisited down.visits later
    have secondLinked := visits downPrefix explored fits.child consistent linked firstReturns
    have thirdLinked := secondLinked.retreat secondConsistent (fits.2.1 child List.mem_cons_self)
      nodeVisited down.visits retreatReturns
    exact loops isPrefix (exploredDown.retreat nodeVisited down.visits) (fits.rest _) thirdConsistent
      thirdLinked restReturns
  | finished => cases returns; exact linked
  | root down further visits loops =>
    obtain rfl : gray = [] := fits
    have downPrefix := further.isPrefix.trans isPrefix
    obtain ⟨second, firstReturns, secondConsistent, exploredDown, _, restReturns⟩ :=
      split_returns down downPrefix explored (by simp [Call.Fits]) consistent returns
    have secondLinked := visits downPrefix explored (by simp [Call.Fits]) consistent linked firstReturns
    exact loops isPrefix exploredDown rfl secondConsistent secondLinked restReturns

/-! ### As long as low-links come down -/

/-- A node of the component is still gray, so the component is not complete. -/
def Open (children : INode → List INode) (gray : List INode) (node : INode) : Prop :=
  ∃ g ∈ gray, Mutual children g node

/-- The state of the search when every completed component has been emitted as a whole. -/
structure Healthy (children : INode → List INode) (order visited gray : List INode)
    (past : List (INode × INode)) (state : ComponentSearch) : Prop where
  mem_stack : ∀ node, node ∈ state.stack ↔ node ∈ visited ∧ Open children gray node
  stackSorted : state.stack.Pairwise fun upper lower => order.idxOf lower < order.idxOf upper
  lowMember : ∀ node ∈ visited, Open children gray node →
    ∃ low ∈ visited, Mutual children low node ∧ state.lowLink node = order.idxOf low
  lowOwn : ∀ node ∈ visited, Open children gray node → state.lowLink node ≤ order.idxOf node
  lowBound : ∀ step ∈ past, Open children gray step.1 → Mutual children step.1 step.2 →
    state.lowLink step.1 ≤ order.idxOf step.2
  lowTied : ∀ node ∈ visited, Open children gray node → (Tied children order past node ↔
    ∃ root ∈ visited, First children order root ∧ Mutual children root node ∧
      state.lowLink node = order.idxOf root)
  finishedTied : ∀ node ∈ visited, ¬ Open children gray node → Tied children order past node
  finishedEmitted : ∀ node ∈ visited, ¬ Open children gray node →
    ∃ scc ∈ state.stronglyConnectedComponents, node ∈ scc
  components : ∀ scc ∈ state.stronglyConnectedComponents, ∀ node ∈ scc, ∀ other,
    other ∈ scc ↔ Mutual children node other

theorem healthy_start : Healthy children order [] [] [] {} := by
  constructor <;> simp [Open]

theorem tied_iff_first (noSource : ∀ step ∈ past, step.1 ≠ node) :
    Tied children order past node ↔ First children order node := by
  induction past using List.reverseRecOn with
  | nil => exact Iff.rfl
  | append_singleton past step ih =>
    obtain ⟨source, target⟩ := step
    have other : node ≠ source := fun same => noSource (source, target) (by simp) same.symm
    rw [tied_snoc, ih fun step member => noSource step (List.mem_append_left _ member)]
    exact or_iff_left fun retreated => other retreated.1

theorem open_enter_iff (explored : Explored children order visited gray past) (unvisited : node ∉ visited)
    (otherVisited : other ∈ visited) :
    Open children (node :: gray) other ↔ Open children gray other := by
  constructor
  · intro isOpen
    obtain ⟨g, inGray, related⟩ := isOpen
    cases List.mem_cons.mp inGray with
    | inl isNode =>
      obtain rfl := isNode
      obtain ⟨z, zGray, toGray, further⟩ := explored.exists_gray otherVisited related.2 unvisited
      exact ⟨z, zGray, Relation.ReflTransGen.trans further related.1, toGray⟩
    | inr old => exact ⟨g, old, related⟩
  · intro isOpen
    obtain ⟨g, inGray, related⟩ := isOpen
    exact ⟨g, List.mem_cons_of_mem _ inGray, related⟩

theorem Healthy.enter (healthy : Healthy children order visited gray past state)
    (explored : Explored children order visited gray past) (consistent : Consistent order visited state)
    (isPrefix : visited ++ [node] <+: order) (unvisited : node ∉ visited) :
    Healthy children order (visited ++ [node]) (node :: gray) past (state.enter node) := by
  have rank := idxOf_entered isPrefix explored.distinct
  have ownLow : (state.enter node).lowLink node = order.idxOf node := consistent.lowLink_entered rank
  have oldLow : ∀ other ∈ visited, (state.enter node).lowLink other = state.lowLink other :=
    fun other member => lowLink_enter_of_visited state unvisited member
  have nodeOpen : Open children (node :: gray) node := ⟨node, List.mem_cons_self, .refl node⟩
  have earlier : ∀ other ∈ visited, order.idxOf other < order.idxOf node := by
    intro other member
    rw [rank]
    exact idxOf_lt_of_mem explored.isPrefix member
  have opens {other : INode} (member : other ∈ visited) := open_enter_iff explored unvisited member
  have oldOrNew : ∀ other, other ∈ visited ++ [node] → other ∈ visited ∨ other = node := by simp
  refine ⟨?_, ?_, ?_, ?_, ?_, ?_, ?_, ?_, healthy.components⟩
  · intro other
    show other ∈ node :: state.stack ↔ _
    by_cases isNode : other = node
    · exact iff_of_true (by simp [isNode]) ⟨by simp [isNode], isNode ▸ nodeOpen⟩
    · simp only [List.mem_cons, isNode, false_or, List.mem_append, List.not_mem_nil, or_false]
      rw [healthy.mem_stack]
      exact and_congr_right fun member => (opens member).symm
  · refine List.pairwise_cons.mpr ⟨fun lower onStack => ?_, healthy.stackSorted⟩
    exact earlier lower (consistent.stackVisited lower onStack)
  · intro other member isOpen
    cases oldOrNew other member with
    | inl old =>
      obtain ⟨low, lowVisited, related, low_eq⟩ := healthy.lowMember other old ((opens old).mp isOpen)
      exact ⟨low, List.mem_append_left _ lowVisited, related, (oldLow other old).trans low_eq⟩
    | inr isNode =>
      obtain rfl := isNode
      exact ⟨other, by simp, .refl other, ownLow⟩
  · intro other member isOpen
    cases oldOrNew other member with
    | inl old => rw [oldLow other old]; exact healthy.lowOwn other old ((opens old).mp isOpen)
    | inr isNode => exact Nat.le_of_eq (isNode ▸ ownLow)
  · intro step inPast isOpen related
    have sourceVisited := (explored.pastVisited step inPast).1
    rw [oldLow _ sourceVisited]
    exact healthy.lowBound step inPast ((opens sourceVisited).mp isOpen) related
  · intro other member isOpen
    cases oldOrNew other member with
    | inl old =>
      rw [oldLow other old, healthy.lowTied other old ((opens old).mp isOpen)]
      refine ⟨fun tied => ?_, fun tied => ?_⟩
      · obtain ⟨root, rootVisited, found⟩ := tied
        exact ⟨root, List.mem_append_left _ rootVisited, found⟩
      · obtain ⟨root, rootVisited, first, related, low_eq⟩ := tied
        refine ⟨root, (oldOrNew root rootVisited).resolve_right fun isNode => ?_, first, related, low_eq⟩
        -- the low-link of an old node is not the id of the new one
        have bound := healthy.lowOwn other old ((opens old).mp isOpen)
        have := earlier other old
        rw [isNode] at low_eq
        omega
    | inr isNode =>
      obtain rfl := isNode
      have noSource : ∀ step ∈ past, step.1 ≠ other :=
        fun step inPast same => unvisited (same ▸ (explored.pastVisited step inPast).1)
      rw [tied_iff_first noSource, ownLow]
      refine ⟨fun first => ⟨other, by simp, first, .refl other, rfl⟩, fun tied => ?_⟩
      obtain ⟨root, rootVisited, first, _, low_eq⟩ := tied
      obtain rfl : other = root := (List.idxOf_inj (isPrefix.subset (by simp))).mp low_eq
      exact first
  · intro other member notOpen
    cases oldOrNew other member with
    | inl old => exact healthy.finishedTied other old fun isOpen => notOpen ((opens old).mpr isOpen)
    | inr isNode => exact absurd (isNode ▸ nodeOpen) notOpen
  · intro other member notOpen
    cases oldOrNew other member with
    | inl old => exact healthy.finishedEmitted other old fun isOpen => notOpen ((opens old).mpr isOpen)
    | inr isNode => exact absurd (isNode ▸ nodeOpen) notOpen

theorem reaches_deepest (explored : Explored children order visited gray past)
    (deepest : gray.head? = some node) {g : INode} (inGray : g ∈ gray) : Reaches children g node := by
  have nodeGray : node ∈ gray := List.mem_of_mem_head? deepest
  refine explored.descends g inGray node (explored.grayVisited node nodeGray) ?_
  obtain ⟨others, rfl⟩ := List.head?_eq_some_iff.mp deepest
  cases List.mem_cons.mp inGray with
  | inl isNode => exact isNode ▸ Nat.le_refl _
  | inr above => exact Nat.le_of_lt (List.rel_of_pairwise_cons explored.graySorted above)

theorem open_iff_mutual (explored : Explored children order visited gray past) (deepest : gray.head? = some node)
    (above : Reaches children node other) :
    Open children gray other ↔ Mutual children other node := by
  constructor
  · intro isOpen
    obtain ⟨g, inGray, related⟩ := isOpen
    exact ⟨Relation.ReflTransGen.trans related.2 (reaches_deepest explored deepest inGray), above⟩
  · intro related
    exact ⟨node, List.mem_of_mem_head? deepest, related.symm⟩

section Retreat

variable (healthy : Healthy children order visited gray past state)
  (explored : Explored children order visited gray past) (consistent : Consistent order visited state)
  (deepest : gray.head? = some node) (isChild : child ∈ children node) (childVisited : child ∈ visited)
  (returns : state.retreat node child = .ok next)

include healthy explored consistent deepest isChild childVisited returns

theorem Healthy.retreat_low (other : INode) :
    (other = node ∧ Mutual children child node ∧
      next.lowLink other = min (state.lowLink child) (state.lowLink other)) ∨
    ¬ (other = node ∧ Mutual children child node) ∧ next.lowLink other = state.lowLink other := by
  have onStack_iff : child ∈ state.stack ↔ Mutual children child node := by
    rw [healthy.mem_stack, open_iff_mutual explored deepest (.single isChild)]
    exact and_iff_right childVisited
  have nodeVisited := explored.grayVisited node (List.mem_of_mem_head? deepest)
  rw [← onStack_iff, lowLink_retreat consistent nodeVisited childVisited returns]
  by_cases both : other = node ∧ child ∈ state.stack
  · rw [if_pos both, both.1]
    exact .inl ⟨rfl, both.2, rfl⟩
  · rw [if_neg both]
    exact .inr ⟨both, rfl⟩

theorem Healthy.retreat_low_le (other : INode) : next.lowLink other ≤ state.lowLink other := by
  obtain ⟨_, _, low⟩ | ⟨_, low⟩ := healthy.retreat_low explored consistent deepest isChild childVisited returns other
  · omega
  · omega

theorem Healthy.retreat_lowMember {other : INode} (member : other ∈ visited) (isOpen : Open children gray other) :
    ∃ low ∈ visited, Mutual children low other ∧ next.lowLink other = order.idxOf low := by
  obtain ⟨rfl, related, low⟩ | ⟨_, low⟩ :=
    healthy.retreat_low explored consistent deepest isChild childVisited returns other
  · rw [low]
    cases Nat.le_total (state.lowLink child) (state.lowLink other) with
    | inl childLower =>
      obtain ⟨low, lowVisited, lowRelated, low_eq⟩ :=
        healthy.lowMember child childVisited ((open_iff_mutual explored deepest (.single isChild)).mpr related)
      exact ⟨low, lowVisited, lowRelated.trans related, (Nat.min_eq_left childLower).trans low_eq⟩
    | inr ownLower =>
      obtain ⟨low, lowVisited, lowRelated, low_eq⟩ := healthy.lowMember other member isOpen
      exact ⟨low, lowVisited, lowRelated, (Nat.min_eq_right ownLower).trans low_eq⟩
  · rw [low]
    exact healthy.lowMember other member isOpen

theorem Healthy.retreat_lowTied {other : INode} (member : other ∈ visited) (isOpen : Open children gray other) :
    Tied children order (past ++ [(node, child)]) other ↔ ∃ root ∈ visited, First children order root ∧
      Mutual children root other ∧ next.lowLink other = order.idxOf root := by
  rw [tied_snoc]
  obtain ⟨rfl, related, low⟩ | ⟨apart, low⟩ :=
    healthy.retreat_low explored consistent deepest isChild childVisited returns other
  · rw [healthy.lowTied other member isOpen,
      healthy.lowTied child childVisited ((open_iff_mutual explored deepest (.single isChild)).mpr related), low]
    constructor
    · intro tied
      -- either low-link is the root's id, and the other one is not below it
      obtain ⟨lowest, lowVisited, lowRelated, low_eq⟩ :=
        healthy.retreat_lowMember explored consistent deepest isChild childVisited returns member isOpen
      rw [low] at low_eq
      cases tied with
      | inl own =>
        obtain ⟨root, rootVisited, first, rootRelated, root_eq⟩ := own
        have := first lowest (explored.isPrefix.subset lowVisited) (lowRelated.trans rootRelated.symm)
        exact ⟨root, rootVisited, first, rootRelated, by omega⟩
      | inr fromChild =>
        obtain ⟨_, _, root, rootVisited, first, rootRelated, root_eq⟩ := fromChild
        have rootOther := rootRelated.trans related
        have := first lowest (explored.isPrefix.subset lowVisited) (lowRelated.trans rootOther.symm)
        exact ⟨root, rootVisited, first, rootOther, by omega⟩
    · intro tied
      obtain ⟨root, rootVisited, first, rootRelated, root_eq⟩ := tied
      cases Nat.le_total (state.lowLink child) (state.lowLink other) with
      | inl childLower =>
        rw [Nat.min_eq_left childLower] at root_eq
        exact .inr ⟨rfl, related, root, rootVisited, first, rootRelated.trans related.symm, root_eq⟩
      | inr ownLower =>
        rw [Nat.min_eq_right ownLower] at root_eq
        exact .inl ⟨root, rootVisited, first, rootRelated, root_eq⟩
  · rw [low, ← healthy.lowTied other member isOpen]
    exact or_iff_left fun retreated => apart ⟨retreated.1, retreated.2.1⟩

theorem Healthy.retreat : Healthy children order visited gray (past ++ [(node, child)]) next := by
  obtain ⟨next', returns', _, sameStack, sameComponents⟩ :=
    consistent.retreat (explored.grayVisited node (List.mem_of_mem_head? deepest)) childVisited
  obtain rfl : next = next' := Except.ok.inj (returns.symm.trans returns')
  have low_le := healthy.retreat_low_le explored consistent deepest isChild childVisited returns
  refine ⟨?_, ?_, ?_, ?_, ?_, ?_, ?_, ?_, ?_⟩
  · rw [sameStack]; exact healthy.mem_stack
  · rw [sameStack]; exact healthy.stackSorted
  · intro other member isOpen
    exact healthy.retreat_lowMember explored consistent deepest isChild childVisited returns member isOpen
  · exact fun other member isOpen => Nat.le_trans (low_le other) (healthy.lowOwn other member isOpen)
  · intro step inPast isOpen related
    cases List.mem_append.mp inPast with
    | inl old => exact Nat.le_trans (low_le _) (healthy.lowBound step old isOpen related)
    | inr new =>
      obtain rfl := List.mem_singleton.mp new
      have childOpen := (open_iff_mutual explored deepest (.single isChild)).mpr related.symm
      have childBound := healthy.lowOwn child childVisited childOpen
      show next.lowLink node ≤ order.idxOf child
      obtain ⟨_, _, low⟩ | ⟨apart, _⟩ :=
        healthy.retreat_low explored consistent deepest isChild childVisited returns node
      · omega
      · exact absurd ⟨rfl, related.symm⟩ apart
  · intro other member isOpen
    exact healthy.retreat_lowTied explored consistent deepest isChild childVisited returns member isOpen
  · exact fun other member notOpen => tied_snoc.mpr (.inl (healthy.finishedTied other member notOpen))
  · rw [sameComponents]; exact healthy.finishedEmitted
  · rw [sameComponents]; exact healthy.components

end Retreat

/-! ### Leaving a node -/

/-- Every finished node below `node` has a low-link that is not below that of `node`. -/
def LowestBelow (children : INode → List INode) (order visited gray : List INode) (state : ComponentSearch)
    (node : INode) : Prop :=
  ∀ other ∈ visited, Open children gray other → order.idxOf node < order.idxOf other →
    state.lowLink node ≤ state.lowLink other

theorem Healthy.lowLink_lt (healthy : Healthy children order visited (node :: gray) past state)
    (explored : Explored children order visited (node :: gray) past)
    (allDone : ∀ child ∈ children node, (node, child) ∈ past)
    (lowest : LowestBelow children order visited (node :: gray) state node) {earlier : INode}
    (earlierGray : earlier ∈ gray) (related : Mutual children earlier node) :
    state.lowLink node < order.idxOf node := by
  have above := (List.pairwise_cons.mp explored.graySorted).1
  let below : INode → Prop := fun other => other ∈ visited ∧ order.idxOf node ≤ order.idxOf other
  have starts : below node := ⟨explored.grayVisited node List.mem_cons_self, Nat.le_refl _⟩
  have ends : ¬ below earlier := fun inside => Nat.not_lt.mpr inside.2 (above earlier earlierGray)
  obtain ⟨x, y, toX, ⟨xVisited, xBelow⟩, step, yOutside, fromY⟩ := exists_crossing related.2 starts ends
  have inPast : (x, y) ∈ past := by
    by_cases isNode : x = node
    · exact isNode ▸ allDone y (isNode ▸ step)
    · refine explored.left x xVisited (fun inGray => ?_) y step
      have xGray := (List.mem_cons.mp inGray).resolve_left isNode
      have := above x xGray
      omega
  have yVisited := (explored.pastVisited _ inPast).2
  have yBefore : order.idxOf y < order.idxOf node := Nat.not_le.mp fun notBefore => yOutside ⟨yVisited, notBefore⟩
  have yToNode : Reaches children y node := Relation.ReflTransGen.trans fromY related.1
  have nodeX : Mutual children node x := ⟨toX, .head step yToNode⟩
  have xOpen : Open children (node :: gray) x := ⟨node, List.mem_cons_self, nodeX⟩
  have bound := healthy.lowBound (x, y) inPast xOpen ⟨.single step, Relation.ReflTransGen.trans yToNode toX⟩
  have notAbove : state.lowLink node ≤ state.lowLink x := by
    cases Nat.eq_or_lt_of_le xBelow with
    | inl same => exact Nat.le_of_eq (explored.idxOf_inj starts.1 same ▸ rfl)
    | inr deeper => exact lowest x xVisited xOpen deeper
  dsimp only at bound
  omega

theorem mem_dropWhile_sorted {stack : List INode} {rank : INode → Nat} {pops : INode → Bool} {bound : Nat}
    (sorted : stack.Pairwise fun upper lower => rank lower < rank upper)
    (pops_iff : ∀ other ∈ stack, pops other = true ↔ bound ≤ rank other) (kept : other ∈ stack.dropWhile pops) :
    rank other < bound := by
  induction stack with
  | nil => cases kept
  | cons upper rest ih =>
    obtain ⟨below, sorted⟩ := List.pairwise_cons.mp sorted
    by_cases popsUpper : pops upper = true
    · rw [List.dropWhile_cons_of_pos popsUpper] at kept
      exact ih sorted (fun other member => pops_iff other (List.mem_cons_of_mem _ member)) kept
    · rw [List.dropWhile_cons_of_neg popsUpper] at kept
      have stops : rank upper < bound :=
        Nat.not_le.mp fun notBelow => popsUpper ((pops_iff upper List.mem_cons_self).mpr notBelow)
      cases List.mem_cons.mp kept with
      | inl isUpper => exact isUpper ▸ stops
      | inr inRest => exact Nat.lt_trans (below other inRest) stops

section Leave

variable (healthy : Healthy children order visited (node :: gray) past state)
  (explored : Explored children order visited (node :: gray) past)

include healthy explored

theorem Healthy.mutual_iff (first : First children order node) {other : INode} (onStack : other ∈ state.stack) :
    Mutual children node other ↔ order.idxOf node ≤ order.idxOf other := by
  obtain ⟨otherVisited, isOpen⟩ := (healthy.mem_stack other).mp onStack
  constructor
  · exact fun related => first other (explored.isPrefix.subset otherVisited) related.symm
  · intro notBefore
    have above := explored.descends node List.mem_cons_self other otherVisited notBefore
    exact ((open_iff_mutual explored rfl above).mp isOpen).symm

theorem Healthy.low_first (first : First children order node) : state.lowLink node = order.idxOf node := by
  have nodeVisited := explored.grayVisited node List.mem_cons_self
  have nodeOpen : Open children (node :: gray) node := ⟨node, List.mem_cons_self, .refl node⟩
  obtain ⟨low, lowVisited, related, low_eq⟩ := healthy.lowMember node nodeVisited nodeOpen
  have notAbove := healthy.lowOwn node nodeVisited nodeOpen
  have notBelow := first low (explored.isPrefix.subset lowVisited) related
  omega

/-- The low-link of a node on the stack is the first node of the component exactly for its tied nodes. -/
theorem Healthy.low_eq_iff (first : First children order node) {other : INode} (onStack : other ∈ state.stack) :
    state.lowLink other = order.idxOf node ↔
      Mutual children node other ∧ Tied children order past other := by
  obtain ⟨otherVisited, isOpen⟩ := (healthy.mem_stack other).mp onStack
  have nodeVisited := explored.grayVisited node List.mem_cons_self
  rw [healthy.lowTied other otherVisited isOpen]
  constructor
  · intro comesDown
    obtain ⟨low, lowVisited, related, low_eq⟩ := healthy.lowMember other otherVisited isOpen
    obtain rfl : node = low := explored.idxOf_inj nodeVisited (comesDown.symm.trans low_eq)
    exact ⟨related, node, nodeVisited, first, related, low_eq⟩
  · intro tied
    obtain ⟨related, root, rootVisited, rootFirst, rootRelated, low_eq⟩ := tied
    have notAbove := rootFirst node (explored.isPrefix.subset nodeVisited) (related.trans rootRelated.symm)
    have notBelow := first root (explored.isPrefix.subset rootVisited) (rootRelated.trans related.symm)
    omega

omit healthy in
/-- The gray nodes above the first node of a component were entered before it, so that none of them is in it. -/
theorem not_mutual_of_first (first : First children order node) {other : INode} (isOpen : Open children gray other) :
    ¬ Mutual children node other := by
  intro related
  obtain ⟨g, inGray, gRelated⟩ := isOpen
  have graysBefore := (List.pairwise_cons.mp explored.graySorted).1 g inGray
  have := first g (explored.isPrefix.subset (explored.grayVisited g (List.mem_cons_of_mem _ inGray)))
    (gRelated.trans related.symm)
  omega

section Emit

variable (consistent : Consistent order visited state) (first : First children order node)
  (allTied : ∀ other ∈ state.stack, Mutual children node other → Tied children order past other)

include consistent first allTied

theorem Healthy.pops_iff {other : INode} (onStack : other ∈ state.stack) :
    decide (state.lowLinkValues.get? other = some (order.idxOf node)) = true ↔
      order.idxOf node ≤ order.idxOf other := by
  rw [decide_eq_true_eq, consistent.low other (consistent.stackVisited other onStack), Option.some.injEq,
    healthy.low_eq_iff explored first onStack, ← healthy.mutual_iff explored first onStack]
  exact and_iff_left_of_imp (allTied other onStack)

theorem Healthy.kept_iff (other : INode) :
    other ∈ state.stack.dropWhile (fun next => state.lowLinkValues.get? next = some (order.idxOf node)) ↔
      other ∈ state.stack ∧ ¬ Mutual children node other := by
  constructor
  · intro kept
    have onStack := (List.dropWhile_suffix _).subset kept
    have before := mem_dropWhile_sorted healthy.stackSorted
      (fun _ member => healthy.pops_iff explored consistent first allTied member) kept
    refine ⟨onStack, fun related => ?_⟩
    have := (healthy.mutual_iff explored first onStack).mp related
    omega
  · intro kept
    apply mem_kept consistent kept.1
    intro low
    exact kept.2 ((healthy.low_eq_iff explored first kept.1).mp low).1

theorem Healthy.popped_iff (allDone : ∀ child ∈ children node, (node, child) ∈ past) (other : INode) :
    other ∈ state.popped (order.idxOf node) ↔ Mutual children node other := by
  constructor
  · intro inPopped
    have onStack := (List.takeWhile_prefix _).subset inPopped
    rw [popped] at inPopped
    have pops := List.mem_takeWhile_imp inPopped
    apply (healthy.mutual_iff explored first onStack).mpr
    exact (healthy.pops_iff explored consistent first allTied onStack).mp pops
  · intro related
    have otherVisited := explored.component_visited allDone
      (fun other member => first other (explored.isPrefix.subset member)) related.symm
    have onStack := (healthy.mem_stack other).mpr ⟨otherVisited, node, List.mem_cons_self, related⟩
    rw [← popped_append state (order.idxOf node), List.mem_append] at onStack
    exact onStack.resolve_right fun kept =>
      ((healthy.kept_iff explored consistent first allTied other).mp kept).2 related

end Emit

/-- Leaving the first node of a component whose nodes are all tied emits the component. -/
theorem Healthy.emit (consistent : Consistent order visited state) (first : First children order node)
    (allDone : ∀ child ∈ children node, (node, child) ∈ past)
    (allTied : ∀ other ∈ state.stack, Mutual children node other → Tied children order past other)
    (returns : state.leave node = .ok next) : Healthy children order visited gray past next := by
  have nodeVisited := explored.grayVisited node List.mem_cons_self
  have weaken : ∀ other, Open children gray other → Open children (node :: gray) other :=
    fun other isOpen => isOpen.imp fun g found => ⟨List.mem_cons_of_mem _ found.1, found.2⟩
  have openOrClass : ∀ other, Open children (node :: gray) other →
      Open children gray other ∨ Mutual children node other := by
    intro other isOpen
    obtain ⟨g, inGray, related⟩ := isOpen
    cases List.mem_cons.mp inGray with
    | inl isNode => exact .inr (isNode ▸ related)
    | inr old => exact .inl ⟨g, old, related⟩
  have notClass : ∀ other, Open children gray other → ¬ Mutual children node other :=
    fun other isOpen => not_mutual_of_first explored first isOpen
  have kept_iff := healthy.kept_iff explored consistent first allTied
  have popped_iff := healthy.popped_iff explored consistent first allTied allDone
  have nonempty : (state.popped (order.idxOf node)).length > 0 :=
    List.length_pos_of_mem ((popped_iff node).mpr (.refl node))
  rw [consistent.leave_eq nodeVisited, if_pos (healthy.low_first explored first).symm, if_pos nonempty] at returns
  obtain rfl := Except.ok.inj returns
  have finished : ∀ other ∈ visited, ¬ Open children gray other →
      Mutual children node other ∨ ¬ Open children (node :: gray) other := by
    intro other member notOpen
    by_cases related : Mutual children node other
    · exact .inl related
    · exact .inr fun isOpen => (openOrClass other isOpen).elim notOpen related
  refine ⟨?_, ?_, ?_, ?_, ?_, ?_, ?_, ?_, ?_⟩
  · intro other
    rw [kept_iff, healthy.mem_stack, and_assoc]
    refine and_congr_right fun member => ⟨fun remains => ?_, fun isOpen => ?_⟩
    · exact (openOrClass other remains.1).resolve_right remains.2
    · exact ⟨weaken other isOpen, notClass other isOpen⟩
  · exact healthy.stackSorted.sublist (List.dropWhile_sublist _)
  · exact fun other member isOpen => healthy.lowMember other member (weaken other isOpen)
  · exact fun other member isOpen => healthy.lowOwn other member (weaken other isOpen)
  · exact fun step inPast isOpen => healthy.lowBound step inPast (weaken _ isOpen)
  · exact fun other member isOpen => healthy.lowTied other member (weaken other isOpen)
  · intro other member notOpen
    cases finished other member notOpen with
    | inl related =>
      exact allTied other ((healthy.mem_stack other).mpr ⟨member, node, List.mem_cons_self, related⟩) related
    | inr notOpenBefore => exact healthy.finishedTied other member notOpenBefore
  · intro other member notOpen
    cases finished other member notOpen with
    | inl related => exact ⟨_, List.mem_append_right _ List.mem_cons_self, (popped_iff other).mpr related⟩
    | inr notOpenBefore =>
      obtain ⟨scc, inside, found⟩ := healthy.finishedEmitted other member notOpenBefore
      exact ⟨scc, List.mem_append_left _ inside, found⟩
  · intro scc member inside inScc other
    cases List.mem_append.mp member with
    | inl old => exact healthy.components scc old inside inScc other
    | inr new =>
      rw [List.mem_singleton.mp new] at inScc ⊢
      have related := (popped_iff inside).mp inScc
      rw [popped_iff]
      exact ⟨fun otherRelated => related.symm.trans otherRelated, fun otherRelated => related.trans otherRelated⟩

/-- Leaving the first node of a component that has an untied node leaves that node on the stack. -/
theorem Healthy.getsStuck (consistent : Consistent order visited state) (first : First children order node)
    {untied : INode} (onStack : untied ∈ state.stack) (related : Mutual children node untied)
    (notTied : ¬ Tied children order past untied) (returns : state.leave node = .ok next) :
    Stuck children order visited gray past next := by
  have graysBefore := (List.pairwise_cons.mp explored.graySorted).1
  have notGray : ∀ other ∈ visited, Mutual children node other → other ∉ gray := by
    intro other member otherRelated inGray
    have := first other (explored.isPrefix.subset member) otherRelated.symm
    have := graysBefore other inGray
    omega
  obtain ⟨untiedVisited, isOpen⟩ := (healthy.mem_stack untied).mp onStack
  obtain ⟨low, lowVisited, lowRelated, low_eq⟩ := healthy.lowMember untied untiedVisited isOpen
  obtain ⟨next', returns', _, sameLow, kept⟩ :=
    consistent.leave (explored.grayVisited node List.mem_cons_self)
  obtain rfl : next = next' := Except.ok.inj (returns.symm.trans returns')
  have notDown : state.lowLink untied ≠ order.idxOf node := fun comesDown =>
    notTied ((healthy.low_eq_iff explored first onStack).mp comesDown).2
  exact ⟨untied, kept untied onStack notDown, low, lowVisited, notGray untied untiedVisited related,
    notGray low lowVisited (related.trans lowRelated.symm), (sameLow untied).trans low_eq, notTied⟩

theorem Healthy.leave (consistent : Consistent order visited state)
    (allDone : ∀ child ∈ children node, (node, child) ∈ past)
    (lowest : LowestBelow children order visited (node :: gray) state node)
    (returns : state.leave node = .ok next) :
    Stuck children order visited gray past next ∨ Healthy children order visited gray past next := by
  by_cases first : First children order node
  · by_cases allTied : ∀ other ∈ state.stack, Mutual children node other → Tied children order past other
    · exact .inr (healthy.emit explored consistent first allDone allTied returns)
    · simp only [not_forall] at allTied
      obtain ⟨untied, onStack, related, notTied⟩ := allTied
      exact .inl (healthy.getsStuck explored consistent first onStack related notTied returns)
  · -- an earlier node of the component is gray, and the low-link is below the id
    simp only [First, not_forall, Nat.not_le] at first
    obtain ⟨other, inOrder, related, before⟩ := first
    have nodeRank := idxOf_lt_of_mem explored.isPrefix (explored.grayVisited node List.mem_cons_self)
    have otherVisited : other ∈ visited :=
      mem_of_idxOf_lt explored.isPrefix (Nat.lt_trans before nodeRank)
    obtain ⟨earlier, inGray, earlierRelated, earlierBefore⟩ :=
      explored.earlierGray node List.mem_cons_self other otherVisited related before
    have earlierGray : earlier ∈ gray := by
      refine (List.mem_cons.mp inGray).resolve_left fun isNode => ?_
      rw [isNode] at earlierBefore
      omega
    have below := healthy.lowLink_lt explored allDone lowest earlierGray earlierRelated
    rw [consistent.leave_eq (explored.grayVisited node List.mem_cons_self), if_neg (by omega)] at returns
    obtain rfl := Except.ok.inj returns
    have opens : ∀ other, Open children gray other ↔ Open children (node :: gray) other := by
      intro other
      constructor
      · exact fun isOpen => isOpen.imp fun g found => ⟨List.mem_cons_of_mem _ found.1, found.2⟩
      · intro isOpen
        obtain ⟨g, inGray, gRelated⟩ := isOpen
        cases List.mem_cons.mp inGray with
        | inl isNode => exact ⟨earlier, earlierGray, earlierRelated.trans (isNode ▸ gRelated)⟩
        | inr old => exact ⟨g, old, gRelated⟩
    refine .inr ⟨?_, healthy.stackSorted, ?_, ?_, ?_, ?_, ?_, ?_, healthy.components⟩
    · simpa only [opens] using healthy.mem_stack
    · simpa only [opens] using healthy.lowMember
    · simpa only [opens] using healthy.lowOwn
    · simpa only [opens] using healthy.lowBound
    · simpa only [opens] using healthy.lowTied
    · simpa only [opens] using healthy.finishedTied
    · simpa only [opens] using healthy.finishedEmitted

end Leave

/-! ### The whole search -/

/-- What a call needs to know about low-links. -/
def LowBefore (children : INode → List INode) (order visited gray : List INode) (state : ComponentSearch) :
    Call INode → Prop
  | .loop node _ => LowestBelow children order visited gray state node
  | _ => True

/-- What a call says about low-links at its end. -/
def LowAfter (children : INode → List INode) (order visited visited' gray : List INode)
    (next : ComponentSearch) : Call INode → Prop
  | .visit node => ∀ other ∈ visited', other ∉ visited → Open children gray other →
      next.lowLink node ≤ next.lowLink other
  | .loop node _ => LowestBelow children order visited' gray next node
  | .roots _ => True

section Steps

variable {visited₁ : List INode} {past₁ : List (INode × INode)} {second third : ComponentSearch}

theorem lowAfter_leave (explored : Explored children order visited gray past)
    (rank : order.idxOf node = visited.length) (exploredBelow : Explored children order visited₁ (node :: gray) past₁)
    (consistent : Consistent order visited₁ second)
    (lowest : LowestBelow children order visited₁ (node :: gray) second node)
    (returns : second.leave node = .ok third) : LowAfter children order visited visited₁ gray third (.visit node) := by
  intro other member new isOpen
  obtain ⟨left, returns', _, sameLow, _⟩ := consistent.leave (exploredBelow.grayVisited node List.mem_cons_self)
  obtain rfl : third = left := Except.ok.inj (returns.symm.trans returns')
  rw [sameLow, sameLow]
  by_cases isNode : other = node
  · exact isNode ▸ Nat.le_refl _
  · have notBefore : ¬ order.idxOf other < visited.length :=
      fun earlier => new (mem_of_idxOf_lt explored.isPrefix earlier)
    have different : order.idxOf other ≠ order.idxOf node :=
      fun same => isNode (exploredBelow.idxOf_inj member same)
    apply lowest other member (isOpen.imp fun g found => ⟨List.mem_cons_of_mem _ found.1, found.2⟩)
    omega

/-- When the search is back from a child, the low-link of the child has been taken into account. -/
theorem lowestBelow_retreat (explored : Explored children order visited gray past)
    (before : LowestBelow children order visited gray state node)
    (exploredDown : Explored children order visited₁ gray past₁) (consistent : Consistent order visited₁ second)
    (healthy : Healthy children order visited₁ gray past₁ second)
    (childLowest : LowAfter children order visited visited₁ gray second (.visit child))
    (deepest : gray.head? = some node) (isChild : child ∈ children node)
    (above : ∀ other ∈ visited₁, other ∉ visited → Reaches children child other)
    (spares : ∀ other ∈ visited, Spares other (.visit child) → second.lowLink other = state.lowLink other)
    (childVisited : child ∈ visited₁) (returns : second.retreat node child = .ok third) :
    LowestBelow children order visited₁ gray third node := by
  intro other member isOpen deeper
  have nodeGray : node ∈ gray := List.mem_of_mem_head? deepest
  have low := lowLink_retreat consistent (exploredDown.grayVisited node nodeGray) childVisited returns
  have notNode : other ≠ node := by
    rintro rfl
    omega
  rw [low other, if_neg fun both => notNode both.1, low node]
  by_cases old : other ∈ visited
  · have lowest : state.lowLink node ≤ state.lowLink other := before other old isOpen deeper
    rw [spares other old trivial, spares node (explored.grayVisited node nodeGray) trivial]
    split <;> omega
  · have reached : Reaches children child other := above other member old
    have related := (open_iff_mutual exploredDown deepest (.head isChild reached)).mp isOpen
    have childOpen : Open children gray child := (open_iff_mutual exploredDown deepest (.single isChild)).mpr
      ⟨Relation.ReflTransGen.trans reached related.1, .single isChild⟩
    have childLow := childLowest other member old isOpen
    rw [if_pos ⟨rfl, (healthy.mem_stack child).mpr ⟨childVisited, childOpen⟩⟩]
    omega

end Steps

theorem healthy_run (run : Run children call visited events visited') (isPrefix : visited' <+: order)
    (explored : Explored children order visited gray past) (fits : call.Fits children gray past)
    (consistent : Consistent order visited state) (healthy : Healthy children order visited gray past state)
    (before : LowBefore children order visited gray state call) (returns : events.foldlM step state = .ok next) :
    Stuck children order visited' gray (past ++ retreats events) next ∨
      Healthy children order visited' gray (past ++ retreats events) next ∧
        LowAfter children order visited visited' gray next call := by
  induction run generalizing gray past state next with
  | seen =>
    cases returns
    exact .inr ⟨by simpa using healthy, fun other member new => absurd member new⟩
  | @fresh node visited visited' events unvisited below ih =>
    obtain ⟨entered, enteredConsistent, looped, loopReturns, loopConsistent, leaveReturns⟩ :=
      fresh_returns unvisited below isPrefix explored fits consistent returns
    have enteredPrefix := below.isPrefix.trans isPrefix
    have rank := idxOf_entered enteredPrefix explored.distinct
    obtain ⟨exploredBelow, allDone⟩ := below.explored isPrefix entered (.below past)
    have past_eq : retreats (.enter node :: (events ++ [.leave node])) = retreats events := by simp
    rw [past_eq]
    -- nothing has been entered after `node` yet
    have nothingBelow : LowestBelow children order (visited ++ [node]) (node :: gray) (state.enter node) node := by
      intro other member _ deeper
      have := idxOf_lt_of_mem enteredPrefix member
      rw [rank] at deeper
      simp only [List.length_append, List.length_singleton] at this
      omega
    have looping := ih isPrefix entered (.below past) enteredConsistent
      (healthy.enter explored consistent enteredPrefix unvisited) nothingBelow loopReturns
    cases looping with
    | inl stuck => exact .inl (stuck.leave exploredBelow loopConsistent leaveReturns)
    | inr loopHealthy =>
      obtain ⟨loopHealthy, lowest⟩ := loopHealthy
      cases loopHealthy.leave exploredBelow loopConsistent allDone lowest leaveReturns with
      | inl stuck => exact .inl stuck
      | inr leftHealthy =>
        exact .inr ⟨leftHealthy, lowAfter_leave explored rank exploredBelow loopConsistent lowest leaveReturns⟩
  | done =>
    cases returns
    exact .inr ⟨by simpa using healthy, before⟩
  | @next node child remaining visited visited₁ visited₂ first rest down further visits loops =>
    have downPrefix := further.isPrefix.trans isPrefix
    have nodeGray : node ∈ gray := List.mem_of_mem_head? fits.1
    have isChild : child ∈ children node := fits.2.1 child List.mem_cons_self
    obtain ⟨second, firstReturns, secondConsistent, exploredDown, spares, later⟩ :=
      split_returns down downPrefix explored fits.child consistent returns
    have above := (down.explored downPrefix explored fits.child).2
    have nodeVisited := exploredDown.grayVisited node nodeGray
    obtain ⟨third, retreatReturns, thirdConsistent, restReturns⟩ :=
      retreat_returns secondConsistent nodeVisited down.visits later
    have exploredBack := exploredDown.retreat nodeVisited down.visits
    have past_eq : past ++ retreats (first ++ .retreat node child :: rest) =
        past ++ retreats first ++ [(node, child)] ++ retreats rest := by simp
    rw [past_eq]
    cases visits downPrefix explored fits.child consistent healthy trivial firstReturns with
    | inl stuck =>
      obtain ⟨final, restReturns', _, _, staysStuck⟩ :=
        consistent_run further isPrefix exploredBack (fits.rest _) thirdConsistent
      obtain rfl : next = final := Except.ok.inj (restReturns.symm.trans restReturns')
      exact .inl (staysStuck (stuck.retreat secondConsistent nodeGray nodeVisited down.visits retreatReturns))
    | inr secondHealthy =>
      obtain ⟨secondHealthy, childLowest⟩ := secondHealthy
      have thirdHealthy := secondHealthy.retreat exploredDown secondConsistent fits.1 isChild
        down.visits retreatReturns
      apply loops isPrefix exploredBack (fits.rest _) thirdConsistent thirdHealthy _ restReturns
      exact lowestBelow_retreat explored before exploredDown secondConsistent secondHealthy childLowest fits.1 isChild
        above spares down.visits retreatReturns
  | finished =>
    cases returns
    exact .inr ⟨by simpa using healthy, trivial⟩
  | @root node remaining visited visited₁ visited₂ first rest down further visits loops =>
    obtain rfl : gray = [] := fits
    have downPrefix := further.isPrefix.trans isPrefix
    have visitFits : (Call.visit node).Fits children [] past := by simp [Call.Fits]
    obtain ⟨second, firstReturns, secondConsistent, exploredDown, _, restReturns⟩ :=
      split_returns down downPrefix explored visitFits consistent returns
    rw [retreats_append, ← List.append_assoc]
    cases visits downPrefix explored visitFits consistent healthy trivial firstReturns with
    | inl stuck =>
      obtain ⟨final, restReturns', _, _, staysStuck⟩ :=
        consistent_run further isPrefix exploredDown rfl secondConsistent
      obtain rfl : next = final := Except.ok.inj (restReturns.symm.trans restReturns')
      exact .inl (staysStuck stuck)
    | inr secondHealthy =>
      exact loops isPrefix exploredDown rfl secondConsistent secondHealthy.1 trivial restReturns

end Invariant

end ComponentSearch

namespace DirectedGraph

open ComponentSearch

/-- Each of the nodes is reached from the other along connections. -/
def MutuallyReachable (graph : DirectedGraph) (u v : INode) : Prop :=
  Relation.ReflTransGen graph.LeadsTo u v ∧ Relation.ReflTransGen graph.LeadsTo v u

/-- A partition of the nodes into the classes of mutual reachability. -/
structure AreComponents (graph : DirectedGraph) (components : List (List INode)) : Prop where
  covers : ∀ node, graph.Contains node → ∃ component ∈ components, node ∈ component
  members : ∀ component ∈ components, ∀ node ∈ component, graph.Contains node
  nonempty : ∀ component ∈ components, component ≠ []
  disjoint : components.Pairwise List.Disjoint
  same_iff : ∀ component ∈ components, ∀ u ∈ component, ∀ v, graph.Contains v →
    (v ∈ component ↔ graph.MutuallyReachable u v)

/-- The order in which a depth-first search of the graph enters the nodes, and the connections it
comes back over: children in the order of their connections, roots in the order of the nodes. -/
def Searches (graph : DirectedGraph) (order : List INode) (steps : List (INode × INode)) : Prop :=
  ∃ events, Run graph.children (.roots graph.nodes.values) [] events order ∧ steps = retreats events

theorem reaches_iff {graph : DirectedGraph} {u v : INode} :
    Reaches graph.children u v ↔ Relation.ReflTransGen graph.LeadsTo u v := by
  have step_iff : ∀ node child, child ∈ graph.children node ↔ graph.LeadsTo node child := by
    intro node child
    simp only [children, List.mem_map, List.mem_filter, decide_eq_true_eq, LeadsTo, and_assoc]
  have same : (fun node child => child ∈ graph.children node) = graph.LeadsTo := by
    funext node child
    exact propext (step_iff node child)
  rw [Reaches, same]

theorem mutual_iff {graph : DirectedGraph} {u v : INode} :
    Mutual graph.children u v ↔ graph.MutuallyReachable u v := by
  rw [Mutual, reaches_iff, reaches_iff, MutuallyReachable]

theorem WellFormed.exists_searches {graph : DirectedGraph} (wellFormed : graph.WellFormed) :
    ∃ order steps, graph.Searches order steps := by
  have closed : ∀ node ∈ graph.nodes.values, ∀ child ∈ graph.children node, child ∈ graph.nodes.values :=
    fun node _ child isChild => wellFormed.contains_iff.mp (children_contains wellFormed isChild)
  obtain ⟨events, order, run⟩ := exists_search closed (fun node member => member) ([] : List INode)
  exact ⟨order, _, events, run, rfl⟩

theorem search_returns {graph : DirectedGraph} (wellFormed : graph.WellFormed) {order : List INode}
    {events : List (Event INode)} (run : Run graph.children (.roots graph.nodes.values) [] events order) :
    ∃ final, events.foldlM step ({} : ComponentSearch) = .ok final ∧ Consistent order order final ∧
      graph.getStronglyConnectedComponents = .ok final.stronglyConnectedComponents := by
  have explored : Explored graph.children order [] [] [] := explored_nil (run.nodup List.nodup_nil)
  obtain ⟨final, returns, consistent, _, _⟩ :=
    consistent_run run (List.prefix_refl _) explored rfl consistent_start
  have enough : (Traversal.unmarked graph.nodes.values ([] : List INode)).length < graph.nodes.size + 1 := by
    rw [← OrderedMap.length_values]
    exact Nat.lt_succ_of_le (List.length_filter_le _ _)
  have follows : graph.nodes.values.foldlM (fun state node => graph.followNode (graph.nodes.size + 1) node state)
      ({} : ComponentSearch) = .ok final :=
    (follows_of_run wellFormed run _ {} rfl (fun node member => wellFormed.contains_iff.mpr member) enough).trans
      returns
  refine ⟨final, returns, consistent, ?_⟩
  rw [getStronglyConnectedComponents, follows]; rfl

/-- Disjoint parts of the classes of mutual reachability. -/
structure WithinComponents (graph : DirectedGraph) (components : List (List INode)) : Prop where
  members : ∀ component ∈ components, ∀ node ∈ component, graph.Contains node
  related : ∀ component ∈ components, ∀ u ∈ component, ∀ v ∈ component, graph.MutuallyReachable u v
  disjoint : components.Pairwise List.Disjoint

/-- The search returns on every graph, and what it returns never joins two components. -/
theorem getStronglyConnectedComponents_within {graph : DirectedGraph} (wellFormed : graph.WellFormed) :
    ∃ components, graph.getStronglyConnectedComponents = .ok components ∧
      graph.WithinComponents components := by
  obtain ⟨order, _, events, run, _⟩ := wellFormed.exists_searches
  have closed : ∀ node ∈ graph.nodes.values, ∀ child ∈ graph.children node, child ∈ graph.nodes.values :=
    fun node _ child isChild => wellFormed.contains_iff.mp (children_contains wellFormed isChild)
  obtain ⟨final, returns, consistent, result⟩ := search_returns wellFormed run
  have explored : Explored graph.children order [] [] [] := explored_nil (run.nodup List.nodup_nil)
  have linked := linked_run run (List.prefix_refl _) explored rfl consistent_start linked_start returns
  refine ⟨_, result, ?_, ?_, consistent.disjoint⟩
  · intro component member node inside
    rw [wellFormed.contains_iff]
    exact run.stays closed (by simp) (fun node member => member) node
      (consistent.emitted component member node inside).1
  · exact fun component member u inU v inV => mutual_iff.mp (linked.related component member u inU v inV)

theorem Searches.components_iff {graph : DirectedGraph} (wellFormed : graph.WellFormed) {order : List INode}
    {steps : List (INode × INode)} (searches : graph.Searches order steps) :
    (∃ components, graph.getStronglyConnectedComponents = .ok components ∧ graph.AreComponents components) ↔
      ∀ node, graph.Contains node → Tied graph.children order steps node := by
  obtain ⟨events, run, rfl⟩ := searches
  have closed : ∀ node ∈ graph.nodes.values, ∀ child ∈ graph.children node, child ∈ graph.nodes.values :=
    fun node _ child isChild => wellFormed.contains_iff.mp (children_contains wellFormed isChild)
  have order_iff : ∀ node, node ∈ order ↔ graph.Contains node := by
    intro node
    rw [wellFormed.contains_iff]
    exact ⟨run.stays closed (by simp) (fun node member => member) node, run.visits node⟩
  have explored : Explored graph.children order [] [] [] := explored_nil (run.nodup List.nodup_nil)
  obtain ⟨final, returns, consistent, result⟩ := search_returns wellFormed run
  have outcome := healthy_run run (List.prefix_refl _) explored rfl consistent_start healthy_start trivial returns
  rw [List.nil_append] at outcome
  cases outcome with
  | inl stuck =>
    obtain ⟨stuck, onStack, _, _, _, _, _, untied⟩ := stuck
    have contains : graph.Contains stuck := (order_iff stuck).mp (consistent.stackVisited stuck onStack)
    refine iff_of_false (fun correct => ?_) fun allTied => untied (allTied stuck contains)
    obtain ⟨components, returned, areComponents⟩ := correct
    obtain rfl := Except.ok.inj (result.symm.trans returned)
    obtain ⟨scc, member, inside⟩ := areComponents.covers stuck contains
    exact (consistent.emitted scc member stuck inside).2 onStack
  | inr healthy =>
    have healthy := healthy.1
    have notOpen : ∀ node, ¬ Open graph.children [] node := by simp [Open]
    refine iff_of_true ⟨_, result, ?_, ?_, consistent.nonempty, consistent.disjoint, ?_⟩ fun node contains =>
      healthy.finishedTied node ((order_iff node).mpr contains) (notOpen node)
    · exact fun node contains => healthy.finishedEmitted node ((order_iff node).mpr contains) (notOpen node)
    · exact fun scc member node inside => (order_iff node).mp (consistent.emitted scc member node inside).1
    · intro scc member u inside v _
      rw [healthy.components scc member u inside v, mutual_iff]

/-- The returned sets are the strongly connected components if and only if all nodes are tied. -/
theorem getStronglyConnectedComponents_iff (graph : DirectedGraph) (built : graph.Built) :
    (∃ components, graph.getStronglyConnectedComponents = .ok components ∧ graph.AreComponents components) ↔
      ∃ order steps, graph.Searches order steps ∧
        ∀ node, graph.Contains node → Tied graph.children order steps node := by
  constructor
  · intro correct
    obtain ⟨order, steps, searches⟩ := built.wellFormed.exists_searches
    exact ⟨order, steps, searches, (searches.components_iff built.wellFormed).mp correct⟩
  · intro tied
    obtain ⟨order, steps, searches, allTied⟩ := tied
    exact (searches.components_iff built.wellFormed).mpr allTied

namespace SimpleCycle

def first : INode := { id := "0", name := "first", type := "set" }
def second : INode := { id := "1", name := "second", type := "set" }

def graph : DirectedGraph where
  nodes := [first, second].foldl (fun nodes node => nodes.set node.name node) ∅
  connections := [⟨first, second, .main, 0, 0⟩, ⟨second, first, .main, 0, 0⟩].foldl
    (fun connections connection => connections.set (makeKey connection) connection) ∅

theorem searches : graph.Searches [first, second] [(second, first), (first, second)] := by
  have back : Run graph.children (.loop second [first]) [first, second]
      ([] ++ .retreat second first :: []) [first, second] := .next (.seen (by decide)) .done
  have below : Run graph.children (.loop first [second]) [first]
      ((.enter second :: (([] ++ .retreat second first :: []) ++ [.leave second])) ++
        .retreat first second :: []) [first, second] := .next (.fresh (by decide) back) .done
  exact ⟨_, .root (.fresh (by decide) below) (.root (.seen (by decide)) .finished), rfl⟩

theorem areComponents : ∃ components,
    graph.getStronglyConnectedComponents = .ok components ∧ graph.AreComponents components := by
  refine (getStronglyConnectedComponents_iff graph (built_iff_wellFormed.mpr (by decide))).mpr
    ⟨_, _, searches, fun node contains => ?_⟩
  have isFirst : First graph.children [first, second] first := fun other _ _ => Nat.zero_le _
  have step : second ∈ graph.children first := by decide
  have back : first ∈ graph.children second := by decide
  have inGraph : node ∈ graph.nodes.values :=
    (built_iff_wellFormed.mpr (by decide) : graph.Built).wellFormed.contains_iff.mp contains
  have oneOfTwo : ∀ node ∈ graph.nodes.values, node = first ∨ node = second := by decide
  cases oneOfTwo node inGraph with
  | inl isNode => exact isNode ▸ Tied.of_first isFirst _
  | inr isNode =>
    obtain rfl := isNode
    exact .inl (.inr ⟨rfl, ⟨.single step, .single back⟩, isFirst⟩)

end SimpleCycle

namespace NestedCycles

def root : INode := { id := "0", name := "root", type := "set" }
def outer : INode := { id := "1", name := "outer", type := "set" }
def inner : INode := { id := "2", name := "inner", type := "set" }

/-- A cycle of `outer` and `inner` inside a cycle of `root` and `outer`. -/
def graph : DirectedGraph where
  nodes := [root, outer, inner].foldl (fun nodes node => nodes.set node.name node) ∅
  connections := [⟨root, outer, .main, 0, 0⟩, ⟨outer, inner, .main, 0, 0⟩, ⟨inner, outer, .main, 0, 0⟩,
    ⟨outer, root, .main, 1, 0⟩].foldl
      (fun connections connection => connections.set (makeKey connection) connection) ∅

/-- The search emits nothing at all. -/
theorem not_areComponents : graph.Built ∧ ¬ ∃ components,
    graph.getStronglyConnectedComponents = .ok components ∧ graph.AreComponents components := by
  refine ⟨built_iff_wellFormed.mpr (by decide), fun correct => ?_⟩
  obtain ⟨components, returned, areComponents⟩ := correct
  have result : graph.getStronglyConnectedComponents = .ok [] := by rfl
  obtain rfl := Except.ok.inj (result.symm.trans returned)
  obtain ⟨component, member, _⟩ := areComponents.covers root (by decide)
  cases member

end NestedCycles

end DirectedGraph

end N8n.Core
