import Mathlib.Logic.Relation
import Mathlib.Data.List.Nodup
import N8n.Library.Traversal

/-! # Depth-first search

The events of a depth-first search: a node is entered, the search comes back from
one child after the other, the node is left.  `Run` is the search as a relation;
`Explored` collects what holds between two events, for every graph.
-/

namespace DepthFirst

open Relation

variable {ν : Type*}

inductive Event (ν : Type*) where
  | enter (node : ν)
  | retreat (node child : ν)
  | leave (node : ν)

inductive Call (ν : Type*) where
  | visit (node : ν)
  | loop (node : ν) (remaining : List ν)
  | roots (remaining : List ν)

/-- A call, the nodes visited before it, its events and the nodes visited after it. -/
inductive Run (children : ν → List ν) : Call ν → List ν → List (Event ν) → List ν → Prop where
  | seen {node : ν} {visited : List ν} (member : node ∈ visited) :
      Run children (.visit node) visited [] visited
  | fresh {node : ν} {visited visited' : List ν} {events : List (Event ν)} (unvisited : node ∉ visited)
      (below : Run children (.loop node (children node)) (visited ++ [node]) events visited') :
      Run children (.visit node) visited (.enter node :: (events ++ [.leave node])) visited'
  | done {node : ν} {visited : List ν} : Run children (.loop node []) visited [] visited
  | next {node child : ν} {remaining visited visited₁ visited₂ : List ν} {first rest : List (Event ν)}
      (down : Run children (.visit child) visited first visited₁)
      (further : Run children (.loop node remaining) visited₁ rest visited₂) :
      Run children (.loop node (child :: remaining)) visited (first ++ .retreat node child :: rest) visited₂
  | finished {visited : List ν} : Run children (.roots []) visited [] visited
  | root {node : ν} {remaining visited visited₁ visited₂ : List ν} {first rest : List (Event ν)}
      (down : Run children (.visit node) visited first visited₁)
      (further : Run children (.roots remaining) visited₁ rest visited₂) :
      Run children (.roots (node :: remaining)) visited (first ++ rest) visited₂

/-- The steps back over connections, in their order. -/
def retreats (events : List (Event ν)) : List (ν × ν) :=
  events.filterMap fun
    | .retreat node child => some (node, child)
    | _ => none

@[simp] theorem retreats_nil : retreats ([] : List (Event ν)) = [] := rfl
@[simp] theorem retreats_append (first second : List (Event ν)) :
    retreats (first ++ second) = retreats first ++ retreats second := List.filterMap_append
@[simp] theorem retreats_enter (node : ν) (events : List (Event ν)) :
    retreats (.enter node :: events) = retreats events := rfl
@[simp] theorem retreats_retreat (node child : ν) (events : List (Event ν)) :
    retreats (.retreat node child :: events) = (node, child) :: retreats events := rfl
@[simp] theorem retreats_leave (node : ν) (events : List (Event ν)) :
    retreats (.leave node :: events) = retreats events := rfl

/-- The nodes in the order in which they are left. -/
def leaves (events : List (Event ν)) : List ν :=
  events.filterMap fun
    | .leave node => some node
    | _ => none

@[simp] theorem leaves_nil : leaves ([] : List (Event ν)) = [] := rfl
@[simp] theorem leaves_append (first second : List (Event ν)) :
    leaves (first ++ second) = leaves first ++ leaves second := List.filterMap_append
@[simp] theorem leaves_enter (node : ν) (events : List (Event ν)) :
    leaves (.enter node :: events) = leaves events := rfl
@[simp] theorem leaves_retreat (node child : ν) (events : List (Event ν)) :
    leaves (.retreat node child :: events) = leaves events := rfl
@[simp] theorem leaves_leave (node : ν) (events : List (Event ν)) :
    leaves (.leave node :: events) = node :: leaves events := rfl

variable {children : ν → List ν}

variable {call : Call ν} {visited visited' : List ν} {events : List (Event ν)}

theorem Run.isPrefix (run : Run children call visited events visited') : visited <+: visited' := by
  induction run with
  | seen => exact List.prefix_refl _
  | fresh _ _ ih => exact (List.prefix_append _ _).trans ih
  | done => exact List.prefix_refl _
  | next _ _ down further => exact down.trans further
  | finished => exact List.prefix_refl _
  | root _ _ down further => exact down.trans further

theorem Run.visits (run : Run children call visited events visited') :
    match call with
    | .visit node => node ∈ visited'
    | .loop _ remaining => ∀ child ∈ remaining, child ∈ visited'
    | .roots remaining => ∀ node ∈ remaining, node ∈ visited' := by
  induction run with
  | seen member => exact member
  | fresh _ below _ => exact below.isPrefix.subset (by simp)
  | done => intro child member; cases member
  | next down further visitsDown visitsFurther =>
    intro child member
    cases List.mem_cons.mp member with
    | inl isFirst => exact isFirst ▸ further.isPrefix.subset visitsDown
    | inr later => exact visitsFurther child later
  | finished => intro node member; cases member
  | root down further visitsDown visitsFurther =>
    intro node member
    cases List.mem_cons.mp member with
    | inl isFirst => exact isFirst ▸ further.isPrefix.subset visitsDown
    | inr later => exact visitsFurther node later

theorem Run.stays {pool : List ν} (closed : ∀ node ∈ pool, ∀ child ∈ children node, child ∈ pool)
    (run : Run children call visited events visited') (inside : ∀ node ∈ visited, node ∈ pool)
    (starts : match call with
      | .visit node => node ∈ pool
      | .loop _ remaining => ∀ child ∈ remaining, child ∈ pool
      | .roots remaining => ∀ node ∈ remaining, node ∈ pool) :
    ∀ node ∈ visited', node ∈ pool := by
  induction run with
  | seen => exact inside
  | fresh _ _ ih =>
    refine ih (fun other member => ?_) (closed _ starts)
    cases List.mem_append.mp member with
    | inl old => exact inside other old
    | inr isNode => exact List.mem_singleton.mp isNode ▸ starts
  | done => exact inside
  | next _ _ down further =>
    exact further (down inside (starts _ List.mem_cons_self))
      fun child member => starts child (List.mem_cons_of_mem _ member)
  | finished => exact inside
  | root _ _ down further =>
    exact further (down inside (starts _ List.mem_cons_self))
      fun node member => starts node (List.mem_cons_of_mem _ member)

theorem Run.nodup (run : Run children call visited events visited') (distinct : visited.Nodup) : visited'.Nodup := by
  induction run with
  | seen => exact distinct
  | fresh unvisited _ ih =>
    refine ih (List.nodup_append.mpr ⟨distinct, List.nodup_singleton _, ?_⟩)
    intro other member node isNode same
    exact unvisited (List.mem_singleton.mp isNode ▸ same ▸ member)
  | done => exact distinct
  | next _ _ down further => exact further (down distinct)
  | finished => exact distinct
  | root _ _ down further => exact further (down distinct)

/-- The order in which the nodes are visited is determined. -/
theorem Run.unique {visited visited' visited'' : List ν} {events events' : List (Event ν)}
    (run : Run children call visited events visited') (other : Run children call visited events' visited'') :
    visited' = visited'' := by
  induction run generalizing visited'' events' with
  | seen member =>
    cases other with
    | seen => rfl
    | fresh unvisited => exact absurd member unvisited
  | fresh unvisited _ ih =>
    cases other with
    | seen member => exact absurd member unvisited
    | fresh _ below => exact ih below
  | done =>
    cases other
    rfl
  | next _ _ down further =>
    cases other with
    | next down' further' =>
      obtain rfl := down down'
      exact further further'
  | finished =>
    cases other
    rfl
  | root _ _ down further =>
    cases other with
    | root down' further' =>
      obtain rfl := down down'
      exact further further'

section

variable [DecidableEq ν]

/-- A search of a finite graph comes to an end. -/
theorem exists_visit {pool : List ν} (closed : ∀ node ∈ pool, ∀ child ∈ children node, child ∈ pool)
    (room : Nat) : ∀ visited, (Traversal.unmarked pool visited).length ≤ room → ∀ node ∈ pool,
      ∃ events visited', Run children (.visit node) visited events visited' := by
  induction room with
  | zero =>
    intro visited full node inside
    refine ⟨[], visited, .seen ?_⟩
    by_contra unvisited
    have := Traversal.length_unmarked_lt inside unvisited
    omega
  | succ room ih =>
    intro visited full node inside
    by_cases member : node ∈ visited
    · exact ⟨[], visited, .seen member⟩
    have fewer := Traversal.length_unmarked_lt inside member
    have loop : ∀ remaining current, (visited ++ [node]) ⊆ current → (∀ child ∈ remaining, child ∈ pool) →
        ∃ events visited', Run children (.loop node remaining) current events visited' := by
      intro remaining
      induction remaining with
      | nil => exact fun current _ _ => ⟨[], current, .done⟩
      | cons child remaining loop =>
        intro current contains starts
        have fewerStill := Traversal.length_unmarked_le pool contains
        obtain ⟨first, visited₁, down⟩ := ih current (by omega) child
          (starts child List.mem_cons_self)
        obtain ⟨rest, visited₂, further⟩ := loop visited₁
          (List.Subset.trans contains down.isPrefix.subset)
          fun other member => starts other (List.mem_cons_of_mem _ member)
        exact ⟨_, visited₂, .next down further⟩
    obtain ⟨events, visited', below⟩ := loop (children node) _ (List.Subset.refl _) (closed node inside)
    exact ⟨_, visited', .fresh member below⟩

theorem exists_search {pool : List ν} (closed : ∀ node ∈ pool, ∀ child ∈ children node, child ∈ pool)
    {remaining : List ν} (starts : ∀ node ∈ remaining, node ∈ pool) (visited : List ν) :
    ∃ events visited', Run children (.roots remaining) visited events visited' := by
  induction remaining generalizing visited with
  | nil => exact ⟨[], visited, .finished⟩
  | cons node remaining ih =>
    obtain ⟨first, visited₁, down⟩ := exists_visit closed _ visited (Nat.le_refl _) node
      (starts node List.mem_cons_self)
    obtain ⟨rest, visited₂, further⟩ := ih
      (fun other member => starts other (List.mem_cons_of_mem _ member)) visited₁
    exact ⟨_, visited₂, .root down further⟩

end

/-! ## The order in which the nodes are left -/

/-- Where a call starts: what it leaves is reached from there. -/
def Call.From (children : ν → List ν) (node : ν) : Call ν → Prop
  | .visit start => ReflTransGen (fun node child => child ∈ children node) start node
  | .loop start _ => TransGen (fun node child => child ∈ children node) start node
  | .roots _ => True

def Call.Within (children : ν → List ν) : Call ν → Prop
  | .loop node remaining => ∀ child ∈ remaining, child ∈ children node
  | _ => True

variable {node : ν}

theorem mem_leaves_append {first rest : List (Event ν)} :
    node ∈ leaves (first ++ rest) ↔ node ∈ leaves first ∨ node ∈ leaves rest := by
  simp

theorem mem_leaves_fresh {node other : ν} :
    other ∈ leaves (.enter node :: (events ++ [.leave node])) ↔ other ∈ leaves events ∨ other = node := by
  simp

theorem mem_leaves_next {first rest : List (Event ν)} {node child other : ν} :
    other ∈ leaves (first ++ .retreat node child :: rest) ↔ other ∈ leaves first ∨ other ∈ leaves rest := by
  simp

theorem Run.mem_visited_iff (run : Run children call visited events visited') :
    node ∈ visited' ↔ node ∈ visited ∨ node ∈ leaves events := by
  induction run with
  | seen => simp
  | fresh _ _ ih =>
    rw [ih]
    simp [or_assoc, or_comm, or_left_comm]
  | done => simp
  | next _ _ down further => simp [further, down, or_assoc]
  | finished => simp
  | root _ _ down further => simp [further, down, or_assoc]

theorem Run.not_mem_of_left (run : Run children call visited events visited') (isLeft : node ∈ leaves events) :
    node ∉ visited := by
  induction run with
  | seen => cases isLeft
  | fresh unvisited _ ih =>
    cases mem_leaves_fresh.mp isLeft with
    | inl inBelow => exact fun member => ih inBelow (List.mem_append_left _ member)
    | inr isNode => exact isNode ▸ unvisited
  | done => cases isLeft
  | next down _ first rest =>
    cases mem_leaves_next.mp isLeft with
    | inl inFirst => exact first inFirst
    | inr inRest => exact fun member => rest inRest (down.isPrefix.subset member)
  | finished => cases isLeft
  | root down _ first rest =>
    cases mem_leaves_append.mp isLeft with
    | inl inFirst => exact first inFirst
    | inr inRest => exact fun member => rest inRest (down.isPrefix.subset member)

theorem Run.children_visited (run : Run children call visited events visited') {node child : ν}
    (isLeft : node ∈ leaves events) (isChild : child ∈ children node) : child ∈ visited' := by
  induction run with
  | seen => cases isLeft
  | fresh _ below ih =>
    cases mem_leaves_fresh.mp isLeft with
    | inl inBelow => exact ih inBelow
    | inr isNode => exact below.visits child (isNode ▸ isChild)
  | done => cases isLeft
  | next _ further first rest =>
    cases mem_leaves_next.mp isLeft with
    | inl inFirst => exact further.isPrefix.subset (first inFirst)
    | inr inRest => exact rest inRest
  | finished => cases isLeft
  | root _ further first rest =>
    cases mem_leaves_append.mp isLeft with
    | inl inFirst => exact further.isPrefix.subset (first inFirst)
    | inr inRest => exact rest inRest

theorem Run.left_from (run : Run children call visited events visited') (within : call.Within children)
    (isLeft : node ∈ leaves events) : call.From children node := by
  induction run with
  | seen => cases isLeft
  | fresh _ _ ih =>
    cases mem_leaves_fresh.mp isLeft with
    | inl inBelow => exact (ih (fun _ isChild => isChild) inBelow).to_reflTransGen
    | inr isNode => exact isNode ▸ .refl
  | done => cases isLeft
  | next _ _ first rest =>
    cases mem_leaves_next.mp isLeft with
    | inl inFirst => exact TransGen.head' (within _ List.mem_cons_self) (first trivial inFirst)
    | inr inRest => exact rest (fun child member => within child (List.mem_cons_of_mem _ member)) inRest
  | finished => exact trivial
  | root => exact trivial

theorem Run.left_apart {call call' : Call ν} {visited visited₁ visited₂ : List ν} {first rest : List (Event ν)}
    (down : Run children call visited first visited₁) (further : Run children call' visited₁ rest visited₂) :
    ∀ earlier ∈ leaves first, ∀ later ∈ leaves rest, earlier ≠ later ∧ later ∉ children earlier := by
  intro earlier isEarlier later isLater
  have notYet := further.not_mem_of_left isLater
  constructor
  · intro same
    exact notYet (down.mem_visited_iff.mpr (.inr (same ▸ isEarlier)))
  · exact fun isChild => notYet (down.children_visited isEarlier isChild)

/-- Without cycles no node is left before one of its children. -/
theorem Run.leaves_pairwise (acyclic : ∀ node, ¬ TransGen (fun node child => child ∈ children node) node node)
    (run : Run children call visited events visited') (within : call.Within children) :
    (leaves events).Pairwise fun earlier later => earlier ≠ later ∧ later ∉ children earlier := by
  induction run with
  | seen => exact .nil
  | @fresh node _ _ events unvisited below ih =>
    simp only [leaves_enter, leaves_append, leaves_leave, leaves_nil]
    refine List.pairwise_append.mpr ⟨ih fun _ isChild => isChild, List.pairwise_singleton _ _, ?_⟩
    intro earlier isEarlier later isNode
    obtain rfl := List.mem_singleton.mp isNode
    constructor
    · intro same
      exact below.not_mem_of_left isEarlier (same ▸ List.mem_append_right _ List.mem_cons_self)
    · intro isChild
      have path : TransGen (fun node child => child ∈ children node) later earlier :=
        below.left_from (fun _ isChild => isChild) isEarlier
      exact acyclic later (path.tail isChild)
  | done => exact .nil
  | next down further first rest =>
    rw [leaves_append, leaves_retreat]
    apply List.pairwise_append.mpr
    exact ⟨first trivial, rest fun child member =>
      within child (List.mem_cons_of_mem _ member), down.left_apart further⟩
  | finished => exact .nil
  | root down further first rest =>
    rw [leaves_append]
    exact List.pairwise_append.mpr ⟨first trivial, rest trivial, down.left_apart further⟩

/-! ## Between two events -/

variable (children) in
def Reaches (u v : ν) : Prop := ReflTransGen (fun node child => child ∈ children node) u v

variable (children) in
def Mutual (u v : ν) : Prop := Reaches children u v ∧ Reaches children v u

theorem Mutual.refl (u : ν) : Mutual children u u := ⟨.refl, .refl⟩

theorem Mutual.symm {u v : ν} (related : Mutual children u v) : Mutual children v u := ⟨related.2, related.1⟩

theorem Mutual.trans {u v w : ν} (first : Mutual children u v) (second : Mutual children v w) :
    Mutual children u w :=
  ⟨ReflTransGen.trans first.1 second.1, ReflTransGen.trans second.2 first.2⟩

/-- A path that leaves a set does so over some arc. -/
theorem exists_crossing {relation : ν → ν → Prop} {inside : ν → Prop} {u v : ν}
    (path : ReflTransGen relation u v) (starts : inside u) (ends : ¬ inside v) :
    ∃ x y, ReflTransGen relation u x ∧ inside x ∧ relation x y ∧ ¬ inside y ∧
      ReflTransGen relation y v := by
  induction path using ReflTransGen.head_induction_on with
  | refl => exact absurd starts ends
  | @head u w step rest ih =>
    by_cases within : inside w
    · obtain ⟨x, y, before, xInside, crosses, yOutside, after⟩ := ih within
      exact ⟨x, y, .head step before, xInside, crosses, yOutside, after⟩
    · exact ⟨u, w, .refl, starts, step, within, rest⟩

section

variable [DecidableEq ν]

theorem idxOf_entered {order visited : List ν} {node : ν} (isPrefix : visited ++ [node] <+: order)
    (distinct : order.Nodup) : order.idxOf node = visited.length := by
  obtain ⟨later, rfl⟩ := isPrefix
  have absent : node ∉ visited := by
    intro member
    simp only [List.append_assoc, List.nodup_append, List.singleton_append] at distinct
    exact distinct.2.2 node member node List.mem_cons_self rfl
  rw [List.append_assoc, List.idxOf_append_of_notMem absent, List.singleton_append,
    List.idxOf_cons_self, Nat.add_zero]

theorem idxOf_lt_of_mem {order visited : List ν} {node : ν} (isPrefix : visited <+: order)
    (member : node ∈ visited) : order.idxOf node < visited.length := by
  obtain ⟨later, rfl⟩ := isPrefix
  rw [List.idxOf_append_of_mem member]
  exact List.idxOf_lt_length_of_mem member

theorem mem_of_idxOf_lt {order visited : List ν} {node : ν} (isPrefix : visited <+: order)
    (before : order.idxOf node < visited.length) : node ∈ visited := by
  by_contra unvisited
  obtain ⟨later, rfl⟩ := isPrefix
  rw [List.idxOf_append_of_notMem unvisited] at before
  omega

/-- What holds when the nodes of `visited` have been entered, those of `gray` not been left (the
deepest first), and the steps of `past` have been made; `order` is the order in which the whole
search enters the nodes. -/
structure Explored (children : ν → List ν) (order visited gray : List ν) (past : List (ν × ν)) : Prop where
  isPrefix : visited <+: order
  distinct : order.Nodup
  grayVisited : ∀ g ∈ gray, g ∈ visited
  graySorted : gray.Pairwise fun deeper g => order.idxOf g < order.idxOf deeper
  descends : ∀ g ∈ gray, ∀ node ∈ visited, order.idxOf g ≤ order.idxOf node → Reaches children g node
  left : ∀ node ∈ visited, node ∉ gray → ∀ child ∈ children node, (node, child) ∈ past
  pastVisited : ∀ step ∈ past, step.1 ∈ visited ∧ step.2 ∈ visited
  /-- The first node of a component stays gray as long as one of its nodes is gray. -/
  earlierGray : ∀ g ∈ gray, ∀ node ∈ visited, Mutual children node g → order.idxOf node < order.idxOf g →
    ∃ earlier ∈ gray, Mutual children earlier g ∧ order.idxOf earlier < order.idxOf g

variable {order visited gray : List ν} {past : List (ν × ν)} {node : ν}

theorem Explored.idxOf_inj (explored : Explored children order visited gray past) {u v : ν}
    (uVisited : u ∈ visited) (same : order.idxOf u = order.idxOf v) : u = v :=
  (List.idxOf_inj (explored.isPrefix.subset uVisited)).mp same

theorem explored_nil (distinct : order.Nodup) : Explored children order [] [] [] where
  isPrefix := List.nil_prefix
  distinct := distinct
  grayVisited := by simp
  graySorted := .nil
  descends := by simp
  left := by simp
  pastVisited := by simp
  earlierGray := by simp

/-- A path to an unvisited node passes a gray node. -/
theorem Explored.exists_gray (explored : Explored children order visited gray past) {u v : ν}
    (uVisited : u ∈ visited) (path : Reaches children u v) (unvisited : v ∉ visited) :
    ∃ g ∈ gray, Reaches children u g ∧ Reaches children g v := by
  induction path using ReflTransGen.head_induction_on with
  | refl => exact absurd uVisited unvisited
  | @head u w step path ih =>
    by_cases isGray : u ∈ gray
    · exact ⟨u, isGray, .refl, .head step path⟩
    · have wVisited := (explored.pastVisited _ (explored.left u uVisited isGray w step)).2
      obtain ⟨g, inGray, toGray, further⟩ := ih wVisited
      exact ⟨g, inGray, .head step toGray, further⟩

theorem Explored.enter (explored : Explored children order visited gray past)
    (isPrefix : visited ++ [node] <+: order) (unvisited : node ∉ visited)
    (from_gray : ∀ deepest ∈ gray.head?, node ∈ children deepest) :
    Explored children order (visited ++ [node]) (node :: gray) past := by
  have entered := idxOf_entered isPrefix explored.distinct
  have earlier : ∀ other ∈ visited, order.idxOf other < order.idxOf node := by
    intro other member
    rw [entered]
    exact idxOf_lt_of_mem explored.isPrefix member
  have reachesNode : ∀ g ∈ gray, Reaches children g node := by
    intro g inGray
    obtain ⟨deepest, others, rfl⟩ := List.exists_cons_of_ne_nil (List.ne_nil_of_mem inGray)
    have step : node ∈ children deepest := from_gray deepest rfl
    have notDeeper : order.idxOf g ≤ order.idxOf deepest := by
      cases List.mem_cons.mp inGray with
      | inl isDeepest => exact isDeepest ▸ Nat.le_refl _
      | inr above => exact Nat.le_of_lt (List.rel_of_pairwise_cons explored.graySorted above)
    exact ReflTransGen.tail
      (explored.descends g inGray deepest (explored.grayVisited _ List.mem_cons_self) notDeeper) step
  refine ⟨isPrefix, explored.distinct, ?_, ?_, ?_, ?_, ?_, ?_⟩
  · intro g inGray
    cases List.mem_cons.mp inGray with
    | inl isNode => simp [isNode]
    | inr old => exact List.mem_append_left _ (explored.grayVisited g old)
  · exact List.pairwise_cons.mpr
      ⟨fun g inGray => earlier g (explored.grayVisited g inGray), explored.graySorted⟩
  · intro g inGray other member notEarlier
    cases List.mem_append.mp member with
    | inl old =>
      cases List.mem_cons.mp inGray with
      | inl isNode =>
        have := earlier other old
        rw [isNode] at notEarlier
        omega
      | inr oldGray => exact explored.descends g oldGray other old notEarlier
    | inr isNode =>
      cases List.mem_singleton.mp isNode
      cases List.mem_cons.mp inGray with
      | inl isNode => exact isNode ▸ .refl
      | inr oldGray => exact reachesNode g oldGray
  · intro other member notGray
    simp only [List.mem_cons, not_or] at notGray
    cases List.mem_append.mp member with
    | inl old => exact explored.left other old notGray.2
    | inr isNode => exact absurd (List.mem_singleton.mp isNode) notGray.1
  · intro step inPast
    obtain ⟨first, second⟩ := explored.pastVisited step inPast
    exact ⟨List.mem_append_left _ first, List.mem_append_left _ second⟩
  · intro g inGray other member related before
    cases List.mem_cons.mp inGray with
    | inl isNode =>
      obtain rfl := isNode
      have otherOld : other ∈ visited := by
        cases List.mem_append.mp member with
        | inl old => exact old
        | inr isNode =>
          cases List.mem_singleton.mp isNode
          omega
      -- the path from the earlier node to the new one passes a gray node
      obtain ⟨z, zGray, toGray, further⟩ := explored.exists_gray otherOld related.1 unvisited
      exact ⟨z, List.mem_cons_of_mem _ zGray, ⟨further, ReflTransGen.trans related.2 toGray⟩,
        earlier z (explored.grayVisited z zGray)⟩
    | inr oldGray =>
      cases List.mem_append.mp member with
      | inl old =>
        obtain ⟨z, zGray, found⟩ := explored.earlierGray g oldGray other old related before
        exact ⟨z, List.mem_cons_of_mem _ zGray, found⟩
      | inr isNode =>
        cases List.mem_singleton.mp isNode
        have := earlier g (explored.grayVisited g oldGray)
        omega

theorem Explored.retreat (explored : Explored children order visited gray past) {child : ν}
    (nodeVisited : node ∈ visited) (childVisited : child ∈ visited) :
    Explored children order visited gray (past ++ [(node, child)]) := by
  refine ⟨explored.isPrefix, explored.distinct, explored.grayVisited, explored.graySorted,
    explored.descends, ?_, ?_, explored.earlierGray⟩
  · exact fun other member notGray next isChild =>
      List.mem_append_left _ (explored.left other member notGray next isChild)
  · intro step inPast
    cases List.mem_append.mp inPast with
    | inl old => exact explored.pastVisited step old
    | inr new => exact List.mem_singleton.mp new ▸ ⟨nodeVisited, childVisited⟩

theorem Explored.leave (explored : Explored children order visited (node :: gray) past)
    (allDone : ∀ child ∈ children node, (node, child) ∈ past) :
    Explored children order visited gray past := by
  have above := List.pairwise_cons.mp explored.graySorted
  refine ⟨explored.isPrefix, explored.distinct, ?_, above.2, ?_, ?_, explored.pastVisited, ?_⟩
  · exact fun g inGray => explored.grayVisited g (List.mem_cons_of_mem _ inGray)
  · exact fun g inGray => explored.descends g (List.mem_cons_of_mem _ inGray)
  · intro other member notGray
    by_cases isNode : other = node
    · exact isNode ▸ allDone
    · exact explored.left other member (by simp [isNode, notGray])
  · intro g inGray other member related before
    obtain ⟨z, zGray, same, zBefore⟩ :=
      explored.earlierGray g (List.mem_cons_of_mem _ inGray) other member related before
    have notNode : z ≠ node := by
      intro isNode
      have := above.1 g inGray
      rw [isNode] at zBefore
      omega
    exact ⟨z, (List.mem_cons.mp zGray).resolve_left notNode, same, zBefore⟩

/-- When a node is left that is the first of its component, the whole component has been visited. -/
theorem Explored.component_visited (explored : Explored children order visited (node :: gray) past)
    (allDone : ∀ child ∈ children node, (node, child) ∈ past)
    (first : ∀ other ∈ visited, Mutual children other node → order.idxOf node ≤ order.idxOf other)
    {other : ν} (related : Mutual children other node) : other ∈ visited := by
  by_contra unvisited
  have nodeVisited := explored.grayVisited node List.mem_cons_self
  obtain ⟨z, zGray, toGray, further⟩ :=
    (explored.leave allDone).exists_gray nodeVisited related.2 unvisited
  have zMutual : Mutual children z node := ⟨ReflTransGen.trans further related.1, toGray⟩
  have notEarlier := first z (explored.grayVisited z (List.mem_cons_of_mem _ zGray)) zMutual
  have before := (List.pairwise_cons.mp explored.graySorted).1 z zGray
  omega

/-- Where a call stands in the search: the node that is looked at next is a child of the deepest
gray node, and the children that are not in the list any more have been dealt with. -/
def Call.Fits (children : ν → List ν) (gray : List ν) (past : List (ν × ν)) : Call ν → Prop
  | .visit node => ∀ deepest ∈ gray.head?, node ∈ children deepest
  | .loop node remaining => gray.head? = some node ∧ (∀ child ∈ remaining, child ∈ children node) ∧
      ∀ child ∈ children node, child ∈ remaining ∨ (node, child) ∈ past
  | .roots _ => gray = []

def Call.Achieved (children : ν → List ν) (visited visited' : List ν) (past' : List (ν × ν)) : Call ν → Prop
  | .visit node => ∀ other ∈ visited', other ∉ visited → Reaches children node other
  | .loop node _ => ∀ child ∈ children node, (node, child) ∈ past'
  | .roots _ => True

omit [DecidableEq ν] in
theorem Call.Fits.below {node : ν} (past : List (ν × ν)) :
    (Call.loop node (children node)).Fits children (node :: gray) past :=
  ⟨rfl, fun _ member => member, fun _ member => .inl member⟩

omit [DecidableEq ν] in
theorem Call.Fits.child {child : ν} {remaining : List ν}
    (fits : (Call.loop node (child :: remaining)).Fits children gray past) :
    (Call.visit child).Fits children gray past := by
  intro deepest isDeepest
  obtain rfl : deepest = node := Option.some.inj (isDeepest.symm.trans fits.1)
  exact fits.2.1 child List.mem_cons_self

omit [DecidableEq ν] in
theorem Call.Fits.rest {child : ν} {remaining : List ν}
    (fits : (Call.loop node (child :: remaining)).Fits children gray past) (between : List (ν × ν)) :
    (Call.loop node remaining).Fits children gray (past ++ between ++ [(node, child)]) := by
  refine ⟨fits.1, fun other member => fits.2.1 other (List.mem_cons_of_mem _ member), fun other isChild => ?_⟩
  cases fits.2.2 other isChild with
  | inl listed =>
    cases List.mem_cons.mp listed with
    | inl isFirst => exact .inr (isFirst ▸ List.mem_append_right _ List.mem_cons_self)
    | inr later => exact .inl later
  | inr old => exact .inr (List.mem_append_left _ (List.mem_append_left _ old))

theorem Run.explored {call : Call ν} {visited' : List ν} {events : List (Event ν)}
    (run : Run children call visited events visited') (isPrefix : visited' <+: order)
    (explored : Explored children order visited gray past) (fits : call.Fits children gray past) :
    Explored children order visited' gray (past ++ retreats events) ∧
      call.Achieved children visited visited' (past ++ retreats events) := by
  induction run generalizing gray past with
  | seen =>
    exact ⟨by simpa using explored, fun other member unvisited => absurd member unvisited⟩
  | @fresh node visited visited' events unvisited below ih =>
    have entered := explored.enter (below.isPrefix.trans isPrefix) unvisited fits
    obtain ⟨exploredBelow, allDone⟩ := ih isPrefix entered (.below past)
    have past_eq : retreats (.enter node :: (events ++ [.leave node])) = retreats events := by simp
    rw [past_eq]
    refine ⟨exploredBelow.leave allDone, fun other member new => ?_⟩
    -- the nodes entered after `node`, which is still gray, are below it
    have rank := idxOf_entered (below.isPrefix.trans isPrefix) explored.distinct
    have notEarlier : order.idxOf node ≤ order.idxOf other := by
      by_contra before
      exact new (mem_of_idxOf_lt explored.isPrefix (by omega))
    exact exploredBelow.descends node List.mem_cons_self other member notEarlier
  | done =>
    refine ⟨by simpa using explored, fun child isChild => ?_⟩
    simpa using fits.2.2 child isChild
  | @next node child remaining visited visited₁ visited₂ first rest down further visits loops =>
    obtain ⟨exploredDown, _⟩ := visits (further.isPrefix.trans isPrefix) explored fits.child
    have nodeGray : node ∈ gray := List.mem_of_mem_head? fits.1
    have retreated := exploredDown.retreat (exploredDown.grayVisited node nodeGray) down.visits
    have past_eq : past ++ retreats (first ++ .retreat node child :: rest) =
        past ++ retreats first ++ [(node, child)] ++ retreats rest := by simp
    rw [past_eq]
    exact loops isPrefix retreated (fits.rest _)
  | finished => exact ⟨by simpa using explored, trivial⟩
  | root down further visits loops =>
    obtain rfl : gray = [] := fits
    obtain ⟨exploredDown, _⟩ := visits (further.isPrefix.trans isPrefix) explored (by simp [Call.Fits])
    obtain ⟨exploredFurther, _⟩ := loops isPrefix exploredDown rfl
    rw [retreats_append, ← List.append_assoc]
    exact ⟨exploredFurther, trivial⟩

end

end DepthFirst
