import Mathlib.Data.Fintype.Card
import Mathlib.Data.Set.Finite.List
import N8n.Library.Traversal

/-! # Backward search over branches

A search that walks edges backwards from a goal and remembers the edges it took,
its branch.  It keeps a branch for two reasons: the branch has reached the start,
or it has come back to a node it passed before.  `keeps_iff` says which edges end
up in a kept branch; `keeps_iff_onWalk_iff` says when these are the edges of the
walks from the start to the goal.
-/

namespace BackwardSearch

open Relation

variable {ν κ : Type*} (edge : κ → Prop) (source target : κ → ν) (start goal : ν)

/-- The call at `current` with the given branch keeps an edge. -/
inductive Keeps : ν → List κ → κ → Prop where
  | reached {branch : List κ} {kept : κ} (member : kept ∈ branch) : Keeps start branch kept
  | closed {current : ν} {branch : List κ} {kept : κ} (member : kept ∈ branch)
      (notStart : current ≠ start) (notGoal : current ≠ goal)
      (passed : current ∈ branch.map target) : Keeps current branch kept
  | parent {current : ν} {branch : List κ} {last kept : κ} (notStart : current ≠ start)
      (notPassed : current ∉ branch.map target) (isEdge : edge last) (leads : target last = current)
      (onwards : Keeps (source last) (branch ++ [last]) kept) : Keeps current branch kept

/-- The edges that a walk from start to goal may use in between. -/
structure Inner (item : κ) : Prop where
  isEdge : edge item
  notGoal : source item ≠ goal
  notStart : target item ≠ start

def Step (u v : ν) : Prop := ∃ item, Inner edge source target start goal item ∧ source item = u ∧ target item = v

/-- Walking backwards from `v` never gets stuck before the start. -/
def Supplied (v : ν) : Prop :=
  ∃ supply : ν → Prop, supply v ∧ ∀ s, supply s → s ≠ goal ∧
    (s = start ∨ ∃ item, Inner edge source target start goal item ∧ target item = s ∧ supply (source item))

/-- The branches the search comes by, each with the node it stands at. -/
inductive Branch : ν → List κ → Prop where
  | nil : Branch goal []
  | snoc {current : ν} {branch : List κ} {last : κ} (rest : Branch current branch)
      (notStart : current ≠ start) (notPassed : current ∉ branch.map target) (isEdge : edge last)
      (leads : target last = current) : Branch (source last) (branch ++ [last])

variable {edge source target start goal}

variable {item : κ}

theorem Step.of_inner (inner : Inner edge source target start goal item) :
    Step edge source target start goal (source item) (target item) :=
  ⟨item, inner, rfl, rfl⟩

/-! ## Branches -/

variable {current : ν} {branch : List κ}

theorem Branch.ne_goal_or_nil (path : Branch edge source target start goal current branch)
    (notPassed : current ∉ branch.map target) : current ≠ goal ∨ branch = [] := by
  have passesGoal : branch ≠ [] → goal ∈ branch.map target := by
    clear notPassed
    induction path with
    | nil => intro nonempty; exact absurd rfl nonempty
    | snoc rest _ _ _ leads ih =>
      intro _
      cases rest with
      | nil => simp [leads]
      | snoc => exact List.map_append ▸ List.mem_append_left _ (ih (by simp))
  by_cases isEmpty : branch = []
  · exact .inr isEmpty
  · exact .inl fun isGoal => notPassed (isGoal ▸ passesGoal isEmpty)

theorem Branch.inner (path : Branch edge source target start goal current branch)
    (valid : current ≠ goal ∨ branch = []) :
    ReflTransGen (Step edge source target start goal) current goal ∧
      ∀ item ∈ branch, Inner edge source target start goal item ∧
        ReflTransGen (Step edge source target start goal) (target item) goal := by
  induction path with
  | nil => exact ⟨.refl, by simp⟩
  | @snoc current branch last rest notStart notPassed isEdge leads ih =>
    obtain ⟨onwards, earlier⟩ := ih (rest.ne_goal_or_nil notPassed)
    have notGoal : source last ≠ goal := valid.resolve_right (by simp)
    have inner : Inner edge source target start goal last := ⟨isEdge, notGoal, leads ▸ notStart⟩
    refine ⟨.head (leads ▸ Step.of_inner inner) onwards, fun item member => ?_⟩
    cases List.mem_append.mp member with
    | inl old => exact earlier item old
    | inr isLast =>
      cases List.mem_singleton.mp isLast
      exact ⟨inner, leads ▸ onwards⟩

theorem Branch.source_mem (path : Branch edge source target start goal current branch) (member : item ∈ branch) :
    source item = current ∨ ∃ next ∈ branch, target next = source item := by
  induction path with
  | nil => cases member
  | @snoc current branch last _ _ _ _ leads ih =>
    cases List.mem_append.mp member with
    | inl old =>
      cases ih old with
      | inl here => exact .inr ⟨last, by simp, leads.trans here.symm⟩
      | inr further =>
        obtain ⟨next, inside, same⟩ := further
        exact .inr ⟨next, List.mem_append_left _ inside, same⟩
    | inr isLast => exact .inl (List.mem_singleton.mp isLast ▸ rfl)

theorem Branch.exists_prefix (path : Branch edge source target start goal current branch) (member : item ∈ branch) :
    ∃ shorter, Branch edge source target start goal (target item) shorter ∧
      target item ∉ shorter.map target := by
  induction path with
  | nil => cases member
  | @snoc current branch last rest _ notPassed _ leads ih =>
    cases List.mem_append.mp member with
    | inl old => exact ih old
    | inr isLast =>
      cases List.mem_singleton.mp isLast
      exact ⟨branch, leads ▸ rest, leads ▸ notPassed⟩

/-- What the call at the end of a branch keeps, the whole search keeps. -/
theorem Branch.descends (path : Branch edge source target start goal current branch) {kept : κ}
    (keeps : Keeps edge source target start goal current branch kept) :
    Keeps edge source target start goal goal [] kept := by
  induction path with
  | nil => exact keeps
  | snoc _ notStart notPassed isEdge leads ih =>
    exact ih (.parent notStart notPassed isEdge leads keeps)

theorem Branch.supplied (path : Branch edge source target start goal current branch) (notGoal : current ≠ goal)
    (ends : current = start ∨ current ∈ branch.map target) (member : item ∈ branch) :
    Supplied edge source target start goal (source item) := by
  have inner := fun item member => ((path.inner (.inl notGoal)).2 item member).1
  refine ⟨fun s => ∃ item ∈ branch, source item = s, ⟨item, member, rfl⟩, fun s supplies => ?_⟩
  obtain ⟨item, member, rfl⟩ := supplies
  refine ⟨(inner item member).notGoal, ?_⟩
  -- the edge before `item` on the branch, or the edge into the node where the branch closes
  have supplier : source item = start ∨ ∃ next ∈ branch, target next = source item := by
    cases path.source_mem member with
    | inr further => exact .inr further
    | inl here =>
      cases ends with
      | inl isStart => exact .inl (here.trans isStart)
      | inr passed =>
        obtain ⟨next, inside, same⟩ := List.mem_map.mp passed
        exact .inr ⟨next, inside, same.trans here.symm⟩
  cases supplier with
  | inl isStart => exact .inl isStart
  | inr further =>
    obtain ⟨next, inside, same⟩ := further
    exact .inr ⟨next, inner next inside, same, next, inside, rfl⟩

theorem Branch.sound (distinct : start ≠ goal) (path : Branch edge source target start goal current branch) {kept : κ}
    (keeps : Keeps edge source target start goal current branch kept) :
    Inner edge source target start goal kept ∧
      ReflTransGen (Step edge source target start goal) (target kept) goal ∧
        Supplied edge source target start goal (source kept) := by
  induction keeps with
  | reached member =>
    obtain ⟨inner, onwards⟩ := (path.inner (.inl distinct)).2 _ member
    exact ⟨inner, onwards, path.supplied distinct (.inl rfl) member⟩
  | closed member _ notGoal passed =>
    obtain ⟨inner, onwards⟩ := (path.inner (.inl notGoal)).2 _ member
    exact ⟨inner, onwards, path.supplied notGoal (.inr passed) member⟩
  | parent notStart notPassed isEdge leads _ ih =>
    exact ih (.snoc path notStart notPassed isEdge leads)

/-! ## Completeness -/

variable {v : ν}

/-- Every node that leads to the goal is where some branch stands when it comes there first. -/
theorem exists_branch (onwards : ReflTransGen (Step edge source target start goal) v goal) :
    ∃ branch, Branch edge source target start goal v branch ∧ v ∉ branch.map target := by
  induction onwards using ReflTransGen.head_induction_on with
  | refl => exact ⟨[], .nil, by simp⟩
  | @head u w step _ ih =>
    obtain ⟨item, inner, rfl, rfl⟩ := step
    obtain ⟨branch, path, notPassed⟩ := ih
    have longer := Branch.snoc path inner.notStart notPassed inner.isEdge rfl
    by_cases passed : source item ∈ (branch ++ [item]).map target
    · obtain ⟨earlier, member, same⟩ := List.mem_map.mp passed
      exact same ▸ longer.exists_prefix member
    · exact ⟨_, longer, passed⟩

section

variable [DecidableEq ν]

/-- From a supplied node the search finds a reason to keep its branch. -/
theorem keeps_of_supplied {nodes : List ν}
    (bounded : ∀ item, Inner edge source target start goal item → target item ∈ nodes)
    (room : Nat) : ∀ {v : ν} {branch : List κ},
      (nodes.filter fun node => node ∉ branch.map target).length ≤ room →
        Supplied edge source target start goal v → ∀ kept ∈ branch,
          Keeps edge source target start goal v branch kept := by
  induction room with
  | zero =>
    intro v branch full supplied kept member
    obtain ⟨supply, supplies, closed⟩ := supplied
    obtain ⟨notGoal, source⟩ := closed v supplies
    by_cases isStart : v = start
    · exact isStart ▸ .reached member
    · obtain ⟨item, inner, leads, _⟩ := source.resolve_left isStart
      have allPassed := List.filter_eq_nil_iff.mp (List.length_eq_zero_iff.mp (Nat.le_zero.mp full))
      have passed : v ∈ branch.map target := by
        simpa using allPassed v (leads ▸ bounded item inner)
      exact .closed member isStart notGoal passed
  | succ room ih =>
    intro v branch full supplied kept member
    obtain ⟨supply, supplies, closed⟩ := supplied
    obtain ⟨notGoal, source⟩ := closed v supplies
    by_cases isStart : v = start
    · exact isStart ▸ .reached member
    by_cases passed : v ∈ branch.map target
    · exact .closed member isStart notGoal passed
    obtain ⟨item, inner, leads, further⟩ := source.resolve_left isStart
    refine .parent isStart passed inner.isEdge leads
      (ih ?_ ⟨supply, further, closed⟩ kept (List.mem_append_left _ member))
    -- `v` is one more node that the longer branch passes
    have fewer := Traversal.length_unmarked_lt (leads ▸ bounded item inner) passed
    rw [← leads] at fewer
    simp only [List.map_append, List.map_cons, List.map_nil]
    unfold Traversal.unmarked at fewer
    omega

theorem keeps_iff {nodes : List ν}
    (bounded : ∀ item, Inner edge source target start goal item → target item ∈ nodes)
    (distinct : start ≠ goal) {item : κ} :
    Keeps edge source target start goal goal [] item ↔
      Inner edge source target start goal item ∧
        ReflTransGen (Step edge source target start goal) (target item) goal ∧
          Supplied edge source target start goal (source item) := by
  refine ⟨Branch.nil.sound distinct, fun kept => ?_⟩
  obtain ⟨inner, onwards, supplied⟩ := kept
  obtain ⟨branch, path, notPassed⟩ := exists_branch onwards
  have longer := Branch.snoc path inner.notStart notPassed inner.isEdge rfl
  exact longer.descends (keeps_of_supplied bounded _ (Nat.le_refl _) supplied item (by simp))

end

/-! ## Walks -/

variable (edge source target start goal)

inductive Walk : ν → ν → List κ → Prop where
  | nil (v : ν) : Walk v v []
  | cons {item : κ} {v : ν} {rest : List κ} (isEdge : edge item) (walk : Walk (target item) v rest) :
      Walk (source item) v (item :: rest)

/-- An edge of a walk from the start to the goal that visits the start only at its start and the
goal only at its end. -/
def OnWalk (item : κ) : Prop :=
  ∃ walk, Walk edge source target start goal walk ∧
    (∀ other ∈ walk, source other ≠ goal ∧ target other ≠ start) ∧ item ∈ walk

variable {edge source target start goal}

theorem Walk.append {u v w : ν} {first second : List κ} (walk : Walk edge source target u v first)
    (further : Walk edge source target v w second) : Walk edge source target u w (first ++ second) := by
  induction walk with
  | nil => exact further
  | cons isEdge _ ih => exact .cons isEdge (ih further)

theorem exists_walk {u v : ν} (steps : ReflTransGen (Step edge source target start goal) u v) :
    ∃ walk, Walk edge source target u v walk ∧
      ∀ other ∈ walk, source other ≠ goal ∧ target other ≠ start := by
  induction steps using ReflTransGen.head_induction_on with
  | refl => exact ⟨[], .nil v, by simp⟩
  | head step _ ih =>
    obtain ⟨item, inner, rfl, rfl⟩ := step
    obtain ⟨walk, isWalk, visits⟩ := ih
    refine ⟨item :: walk, .cons inner.isEdge isWalk, fun other member => ?_⟩
    cases List.mem_cons.mp member with
    | inl isFirst => exact isFirst ▸ ⟨inner.notGoal, inner.notStart⟩
    | inr further => exact visits other further

theorem Walk.steps {u v : ν} {walk : List κ} (isWalk : Walk edge source target u v walk)
    (visits : ∀ other ∈ walk, source other ≠ goal ∧ target other ≠ start) :
    ReflTransGen (Step edge source target start goal) u v ∧ ∀ item ∈ walk,
      Inner edge source target start goal item ∧
        ReflTransGen (Step edge source target start goal) u (source item) ∧
          ReflTransGen (Step edge source target start goal) (target item) v := by
  induction isWalk with
  | nil => exact ⟨.refl, by simp⟩
  | @cons item v rest isEdge _ ih =>
    obtain ⟨notGoal, notStart⟩ := visits item List.mem_cons_self
    have inner : Inner edge source target start goal item := ⟨isEdge, notGoal, notStart⟩
    obtain ⟨onwards, later⟩ :=
      ih fun other member => visits other (List.mem_cons_of_mem _ member)
    refine ⟨.head (Step.of_inner inner) onwards, fun other member => ?_⟩
    cases List.mem_cons.mp member with
    | inl isFirst => obtain rfl := isFirst; exact ⟨inner, .refl, onwards⟩
    | inr further =>
      obtain ⟨otherInner, reached, leads⟩ := later other further
      exact ⟨otherInner, .head (Step.of_inner inner) reached, leads⟩

theorem onWalk_iff : OnWalk edge source target start goal item ↔
    Inner edge source target start goal item ∧
      ReflTransGen (Step edge source target start goal) start (source item) ∧
        ReflTransGen (Step edge source target start goal) (target item) goal := by
  constructor
  · intro onWalk
    obtain ⟨walk, isWalk, visits, member⟩ := onWalk
    exact (isWalk.steps visits).2 item member
  · intro between
    obtain ⟨inner, reached, onwards⟩ := between
    obtain ⟨first, isFirst, firstVisits⟩ := exists_walk reached
    obtain ⟨second, isSecond, secondVisits⟩ := exists_walk onwards
    refine ⟨first ++ item :: second, isFirst.append (.cons inner.isEdge isSecond), ?_, by simp⟩
    intro other member
    cases List.mem_append.mp member with
    | inl inFirst => exact firstVisits other inFirst
    | inr further =>
      cases List.mem_cons.mp further with
      | inl isItem => exact isItem ▸ ⟨inner.notGoal, inner.notStart⟩
      | inr inSecond => exact secondVisits other inSecond

theorem supplied_of_reached (notGoal : v ≠ goal) (reached : ReflTransGen (Step edge source target start goal) start v) :
    Supplied edge source target start goal v := by
  refine ⟨fun s => s ≠ goal ∧ ReflTransGen (Step edge source target start goal) start s,
    ⟨notGoal, reached⟩, fun s supplies => ⟨supplies.1, ?_⟩⟩
  cases ReflTransGen.cases_tail supplies.2 with
  | inl isStart => exact .inl isStart
  | inr last =>
    obtain ⟨previous, before, item, inner, rfl, rfl⟩ := last
    exact .inr ⟨item, inner, rfl, inner.notGoal, before⟩

theorem supplied_of_cycle (cycle : TransGen (Step edge source target start goal) v v) :
    Supplied edge source target start goal v := by
  have notGoal : ∀ s, TransGen (Step edge source target start goal) s v → s ≠ goal := by
    intro s further
    obtain ⟨_, ⟨item, inner, rfl, _⟩, _⟩ := TransGen.head'_iff.mp further
    exact inner.notGoal
  refine ⟨fun s => TransGen (Step edge source target start goal) v s ∧
      TransGen (Step edge source target start goal) s v, ⟨cycle, cycle⟩, fun s supplies =>
    ⟨notGoal s supplies.2, .inr ?_⟩⟩
  obtain ⟨previous, before, item, inner, rfl, rfl⟩ := TransGen.tail'_iff.mp supplies.1
  have onwards := TransGen.head (Step.of_inner inner) supplies.2
  refine ⟨item, inner, rfl, ?_, onwards⟩
  exact TransGen.trans_left cycle before

/-- In a finite nonempty set where everything has a predecessor something is on a cycle. -/
theorem exists_cycle {relation : ν → ν → Prop} {nodes : List ν} {within : ν → Prop}
    (finite : ∀ v, within v → v ∈ nodes) {first : ν} (nonempty : within first)
    (predecessor : ∀ v, within v → ∃ u, within u ∧ relation u v) :
    ∃ v, within v ∧ TransGen relation v v := by
  by_contra acyclic
  simp only [not_exists, not_and] at acyclic
  let below : {v // within v} → {v // within v} → Prop := fun u v => TransGen relation u.1 v.1
  have : Finite {v // within v} := (nodes.finite_toSet.subset finite).to_subtype
  have : IsTrans {v // within v} below := ⟨fun _ _ _ => TransGen.trans⟩
  have : Std.Irrefl below := ⟨fun v => acyclic v.1 v.2⟩
  have wellFounded : WellFounded below := Finite.wellFounded_of_trans_of_irrefl below
  obtain ⟨least, _, isLeast⟩ := wellFounded.has_min Set.univ ⟨⟨first, nonempty⟩, trivial⟩
  obtain ⟨u, inside, related⟩ := predecessor least.1 least.2
  exact isLeast ⟨u, inside⟩ trivial (.single related)

/-- The search keeps exactly the edges of walks if and only if the start reaches every cycle that
leads to the goal. -/
theorem keeps_iff_onWalk_iff [DecidableEq ν] {nodes : List ν}
    (bounded : ∀ item, Inner edge source target start goal item → target item ∈ nodes)
    (boundedSource : ∀ item, Inner edge source target start goal item → source item ∈ nodes)
    (distinct : start ≠ goal) :
    (∀ item, Keeps edge source target start goal goal [] item ↔ OnWalk edge source target start goal item) ↔
      ∀ v, TransGen (Step edge source target start goal) v v →
        ReflTransGen (Step edge source target start goal) v goal →
          ReflTransGen (Step edge source target start goal) start v := by
  simp only [keeps_iff bounded distinct, onWalk_iff]
  constructor
  · intro same v cycle onwards
    obtain ⟨_, ⟨item, inner, rfl, rfl⟩, back⟩ := TransGen.head'_iff.mp cycle
    have kept := (same item).mp ⟨inner, back.trans onwards, supplied_of_cycle cycle⟩
    exact kept.2.1
  · intro reaches item
    refine ⟨fun kept => ?_, fun between => ?_⟩
    · obtain ⟨inner, onwards, supply, supplies, closed⟩ := kept
      refine ⟨inner, ?_, onwards⟩
      by_contra unreached
      -- the suppliers that the start does not reach and that lead to the goal
      let within : ν → Prop := fun s => supply s ∧
        ¬ ReflTransGen (Step edge source target start goal) start s ∧
          TransGen (Step edge source target start goal) s goal
      have predecessor : ∀ s, within s → ∃ u, within u ∧ Step edge source target start goal u s := by
        intro s inside
        obtain ⟨supplies, notReached, leads⟩ := inside
        have notStart : s ≠ start := fun isStart => notReached (isStart ▸ .refl)
        obtain ⟨before, beforeInner, rfl, further⟩ := ((closed s supplies).2).resolve_left notStart
        have step := Step.of_inner beforeInner
        exact ⟨_, ⟨further, fun reached => notReached (reached.tail step), .head step leads⟩, step⟩
      have finite : ∀ s, within s → s ∈ nodes := by
        intro s inside
        obtain ⟨_, ⟨other, otherInner, rfl, _⟩, _⟩ := TransGen.head'_iff.mp inside.2.2
        exact boundedSource other otherInner
      obtain ⟨v, inside, cycle⟩ := exists_cycle finite
        ⟨supplies, unreached, TransGen.head' (Step.of_inner inner) onwards⟩ predecessor
      exact inside.2.1 (reaches v cycle inside.2.2.to_reflTransGen)
    · obtain ⟨inner, reached, onwards⟩ := between
      exact ⟨inner, onwards, supplied_of_reached inner.notGoal reached⟩

end BackwardSearch
