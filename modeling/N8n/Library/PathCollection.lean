import Mathlib.Logic.Relation
import Mathlib.Data.List.Nodup
import N8n.Library.Traversal

/-! # Collecting the nodes of all branches

A search that follows every simple path from a root and carries the nodes of
its own branch only.  Every call returns the nodes that its branches come by;
`merge` puts the nodes that a child returns in front of what was found before.
-/

namespace PathCollection

open Relation

variable {ν : Type*} [DecidableEq ν]

/-- The nodes in front, each taken out of its place in the list. -/
def merge (found nodes : List ν) : List ν := nodes.foldr (fun node found => node :: found.erase node) found

@[simp] theorem merge_nil (found : List ν) : merge found [] = found := rfl

@[simp] theorem merge_cons (found : List ν) (node : ν) (nodes : List ν) :
    merge found (node :: nodes) = node :: (merge found nodes).erase node := rfl

theorem count_merge (found nodes : List ν) (node : ν) :
    (merge found nodes).count node = if node ∈ nodes then max 1 (found.count node) else found.count node := by
  induction nodes with
  | nil => simp
  | cons first rest ih =>
    rw [merge_cons, List.count_cons]
    by_cases same : node = first
    · subst same
      rw [List.count_erase_self, ih]
      simp only [beq_self_eq_true, if_true, List.mem_cons, true_or]
      split <;> omega
    · rw [List.count_erase_of_ne same, ih]
      have different : (first == node) = false := beq_eq_false_iff_ne.mpr fun same' => same same'.symm
      simp only [different, same, List.mem_cons, false_or, Bool.false_eq_true, if_false, Nat.add_zero]

variable {node : ν}

theorem mem_merge {found nodes : List ν} : node ∈ merge found nodes ↔ node ∈ found ∨ node ∈ nodes := by
  rw [← List.count_pos_iff, count_merge]
  split
  · rename_i inside
    exact iff_of_true (by omega) (.inr inside)
  · rename_i outside
    rw [List.count_pos_iff]
    simp [outside]

theorem nodup_merge {found nodes : List ν} : (merge found nodes).Nodup ↔ found.Nodup := by
  simp only [List.nodup_iff_count_le_one, count_merge]
  constructor
  · intro once node
    have := once node
    split at this <;> omega
  · intro once node
    have := once node
    split <;> omega

/-! ## The search -/

/-- The call for a node; nothing if the fuel does not last. -/
def collect (children : ν → List ν) : Nat → ν → List ν → Option (List ν)
  | 0, _, _ => none
  | fuel + 1, node, seen =>
    if node ∈ seen then some []
    else
      (children node).foldlM (fun found child =>
        if child ∈ seen ++ [node] then some found
        else (collect children fuel child (seen ++ [node])).map (merge (child :: found))) []

/-- From one node to a child that the branch has not come by. -/
def Onward (children : ν → List ν) (seen : List ν) (node child : ν) : Prop := child ∈ children node ∧ child ∉ seen

abbrev Reaches (children : ν → List ν) (seen : List ν) : ν → ν → Prop := ReflTransGen (Onward children seen)

variable {children : ν → List ν}

variable {seen : List ν}

/-- A walk that leaves a node does not have to come back to it. -/
theorem reaches_iff {node other : ν} :
    Reaches children seen node other ↔ other = node ∨
      ∃ child ∈ children node, child ∉ seen ++ [node] ∧ Reaches children (seen ++ [node]) child other := by
  constructor
  · intro reaches
    induction reaches with
    | refl => exact .inl rfl
    | @tail last next _ step ih =>
      by_cases isNode : next = node
      · exact .inl isNode
      · have unseen : next ∉ seen ++ [node] := by simp [step.2, isNode]
        cases ih with
        | inl same =>
          subst same
          exact .inr ⟨next, step.1, unseen, .refl⟩
        | inr through =>
          obtain ⟨child, isChild, childUnseen, onwards⟩ := through
          exact .inr ⟨child, isChild, childUnseen, onwards.tail ⟨step.1, unseen⟩⟩
  · intro either
    cases either with
    | inl same =>
      subst same
      exact .refl
    | inr through =>
      obtain ⟨child, isChild, childUnseen, onwards⟩ := through
      have weaker : Reaches children seen child other := by
        apply ReflTransGen.mono _ _ _ onwards
        intro node next step
        exact ⟨step.1, fun inside => step.2 (List.mem_append_left _ inside)⟩
      exact .head ⟨isChild, fun inside => childUnseen (List.mem_append_left _ inside)⟩ weaker

def gather (children : ν → List ν) (fuel : Nat) (checked found : List ν) (child : ν) : Option (List ν) :=
  if child ∈ checked then some found
  else (collect children fuel child checked).map (merge (child :: found))

theorem collect_succ (children : ν → List ν) (fuel : Nat) (node : ν) (seen : List ν) :
    collect children (fuel + 1) node seen =
      if node ∈ seen then some []
      else (children node).foldlM (gather children fuel (seen ++ [node])) [] := rfl

variable {fuel : Nat}

theorem foldlM_gather_cons {checked found final : List ν} {child : ν} {remaining : List ν} :
    (child :: remaining).foldlM (gather children fuel checked) found = some final ↔
      child ∈ checked ∧ remaining.foldlM (gather children fuel checked) found = some final ∨
        child ∉ checked ∧ ∃ nodes, collect children fuel child checked = some nodes ∧
          remaining.foldlM (gather children fuel checked) (merge (child :: found) nodes) = some final := by
  rw [List.foldlM_cons, gather]
  by_cases isChecked : child ∈ checked
  · simp [isChecked]
  · cases collect children fuel child checked <;> simp [isChecked]

/-! ## Membership -/

theorem mem_loop {checked : List ν}
    (calls : ∀ child nodes, child ∉ checked → collect children fuel child checked = some nodes →
      ∀ node, node ∈ nodes ↔ node ≠ child ∧ Reaches children checked child node) {remaining found final : List ν}
    (returns : remaining.foldlM (gather children fuel checked) found = some final) (node : ν) :
    node ∈ final ↔ node ∈ found ∨ ∃ child ∈ remaining, child ∉ checked ∧ Reaches children checked child node := by
  induction remaining generalizing found with
  | nil =>
    cases returns
    simp
  | cons child remaining ih =>
    cases foldlM_gather_cons.mp returns with
    | inl skipped =>
      rw [ih skipped.2]
      simp [skipped.1]
    | inr called =>
      obtain ⟨unchecked, nodes, collected, further⟩ := called
      rw [ih further, mem_merge, List.mem_cons, calls child nodes unchecked collected]
      have reached : node = child ∨ node ≠ child ∧ Reaches children checked child node ↔
          Reaches children checked child node := by
        by_cases same : node = child
        · subst same
          simp [Reaches, ReflTransGen.refl]
        · simp [same]
      simp only [List.mem_cons, exists_eq_or_imp, unchecked, not_false_eq_true, true_and]
      tauto

/-- The call returns the other nodes to which a walk leads that avoids the seen nodes. -/
theorem mem_collect {seen nodes : List ν} (unseen : node ∉ seen)
    (collected : collect children fuel node seen = some nodes) (other : ν) :
    other ∈ nodes ↔ other ≠ node ∧ Reaches children seen node other := by
  induction fuel generalizing node seen nodes other with
  | zero => cases collected
  | succ fuel ih =>
    rw [collect_succ, if_neg unseen] at collected
    rw [mem_loop (fun child nodes unchecked found => ih unchecked found) collected, reaches_iff]
    constructor
    · intro either
      obtain ⟨child, isChild, unchecked, onwards⟩ := either.resolve_left List.not_mem_nil
      refine ⟨?_, .inr ⟨child, isChild, unchecked, onwards⟩⟩
      intro same
      subst same
      cases onwards.cases_tail with
      | inl isChildItself =>
        subst isChildItself
        exact unchecked (by simp)
      | inr step =>
        obtain ⟨_, _, last⟩ := step
        exact last.2 (by simp)
    · intro both
      exact .inr (both.2.resolve_left both.1)

/-! ## Repetitions -/

theorem nodup_loop {checked : List ν} {remaining found final : List ν}
    (returns : remaining.foldlM (gather children fuel checked) found = some final) :
    final.Nodup ↔ found.Nodup ∧ (∀ child ∈ remaining, child ∉ checked → child ∉ found) ∧
      (remaining.filter (· ∉ checked)).Pairwise fun earlier later => ¬ Reaches children checked earlier later := by
  induction remaining generalizing found with
  | nil =>
    cases returns
    simp
  | cons child remaining ih =>
    cases foldlM_gather_cons.mp returns with
    | inl skipped =>
      rw [ih skipped.2]
      simp [skipped.1]
    | inr called =>
      obtain ⟨unchecked, nodes, collected, further⟩ := called
      rw [ih further, nodup_merge, List.nodup_cons, List.filter_cons_of_pos (by simpa using unchecked),
        List.pairwise_cons]
      have later : ∀ next, next ∉ merge (child :: found) nodes ↔
          next ∉ found ∧ ¬ Reaches children checked child next := by
        intro next
        rw [mem_merge, List.mem_cons, mem_collect unchecked collected]
        by_cases same : next = child
        · subst same
          simp [Reaches, ReflTransGen.refl]
        · simp [same]
      simp only [later, List.mem_cons, List.mem_filter, decide_eq_true_eq, forall_eq_or_imp]
      constructor
      · intro all
        obtain ⟨⟨notFound, once⟩, afterwards, rest⟩ := all
        exact ⟨once, ⟨fun _ => notFound, fun next inside fresh => (afterwards next inside fresh).1⟩,
          fun next inside => (afterwards next inside.1 inside.2).2, rest⟩
      · intro all
        obtain ⟨once, ⟨notFound, nextNotFound⟩, notReached, rest⟩ := all
        exact ⟨⟨notFound unchecked, once⟩,
          fun next inside fresh => ⟨nextNotFound next inside fresh, notReached next ⟨inside, fresh⟩⟩, rest⟩

/-- The call returns every node once if and only if none of its children comes again after it was found: as
another child, or on a walk from an earlier child that avoids the node itself. -/
theorem nodup_collect_iff {nodes : List ν} (collected : collect children fuel node [] = some nodes) :
    nodes.Nodup ↔ ((children node).filter (· ≠ node)).Pairwise
      fun earlier later => ¬ Reaches children [node] earlier later := by
  cases fuel with
  | zero => cases collected
  | succ fuel =>
    rw [collect_succ, if_neg List.not_mem_nil] at collected
    rw [nodup_loop collected]
    simp

/-! ## Order -/

/-- Every node of the list comes after all the nodes it leads to. -/
def Supplied (children : ν → List ν) (before : List ν) : List ν → Prop
  | [] => True
  | node :: rest =>
    (∀ other, TransGen (fun node child => child ∈ children node) node other → other ∈ before) ∧
      Supplied children (node :: before) rest

omit [DecidableEq ν] in
theorem Supplied.mono {before before' nodes : List ν} (supplied : Supplied children before nodes)
    (subset : before ⊆ before') : Supplied children before' nodes := by
  induction nodes generalizing before before' with
  | nil => trivial
  | cons node rest ih =>
    exact ⟨fun other leads => subset (supplied.1 other leads),
      ih supplied.2 (List.cons_subset_cons node subset)⟩

theorem Supplied.erase {before nodes : List ν} (supplied : Supplied children before nodes) (inside : node ∈ before) :
    Supplied children before (nodes.erase node) := by
  induction nodes generalizing before with
  | nil => trivial
  | cons first rest ih =>
    rw [List.erase_cons]
    split
    · rename_i same
      have firstInside : first ∈ before := by
        rw [beq_iff_eq.mp same]
        exact inside
      exact supplied.2.mono (List.cons_subset.mpr ⟨firstInside, List.Subset.refl _⟩)
    · exact ⟨supplied.1, ih supplied.2 (List.mem_cons_of_mem _ inside)⟩

theorem Supplied.merge {before found nodes : List ν} (front : Supplied children before nodes)
    (behind : Supplied children (nodes ++ before) found) :
    Supplied children before (merge found nodes) := by
  induction nodes generalizing before with
  | nil => exact behind
  | cons node rest ih =>
    refine ⟨front.1, Supplied.erase (ih front.2 (behind.mono ?_)) List.mem_cons_self⟩
    intro other inside
    simp only [List.cons_append, List.mem_cons, List.mem_append] at inside ⊢
    tauto

omit [DecidableEq ν] in
/-- In a graph without cycles the nodes of a branch are not met again below it. -/
theorem reaches_of_acyclic (acyclic : ∀ node, ¬ TransGen (fun node child => child ∈ children node) node node)
    {node other : ν} (branch : ∀ earlier ∈ seen, TransGen (fun node child => child ∈ children node) earlier node)
    (leads : TransGen (fun node child => child ∈ children node) node other) : Reaches children seen node other := by
  induction leads with
  | single isChild => exact .single ⟨isChild, fun inside => acyclic _ ((branch _ inside).tail isChild)⟩
  | tail onwards isChild ih =>
    exact ih.tail
      ⟨isChild, fun inside => acyclic _ ((branch _ inside).trans (onwards.tail isChild))⟩

theorem supplied_collect (acyclic : ∀ node, ¬ TransGen (fun node child => child ∈ children node) node node)
    {seen nodes : List ν} (branch : ∀ earlier ∈ seen, TransGen (fun node child => child ∈ children node) earlier node)
    (collected : collect children fuel node seen = some nodes) : Supplied children [] nodes := by
  induction fuel generalizing node seen nodes with
  | zero => cases collected
  | succ fuel ih =>
    rw [collect_succ] at collected
    split at collected
    · cases collected
      trivial
    · have loop : ∀ remaining found final : List ν, (∀ child ∈ remaining, child ∈ children node) →
          Supplied children [] found →
          remaining.foldlM (gather children fuel (seen ++ [node])) found = some final →
          Supplied children [] final := by
        intro remaining
        induction remaining with
        | nil =>
          intro found final _ supplied returns
          cases returns
          exact supplied
        | cons child remaining loop =>
          intro found final listed supplied returns
          have isChild := listed child List.mem_cons_self
          have restListed : ∀ child ∈ remaining, child ∈ children node :=
            fun child inside => listed child (List.mem_cons_of_mem _ inside)
          cases foldlM_gather_cons.mp returns with
          | inl skipped => exact loop found final restListed supplied skipped.2
          | inr called =>
            obtain ⟨unchecked, nodes, collected, further⟩ := called
            have childBranch : ∀ earlier ∈ seen ++ [node],
                TransGen (fun node child => child ∈ children node) earlier child := by
              intro earlier inside
              cases List.mem_append.mp inside with
              | inl above => exact (branch earlier above).tail isChild
              | inr isNode =>
                obtain rfl := List.mem_singleton.mp isNode
                exact .single isChild
            have front := ih childBranch collected
            -- everything above the child is among the nodes that its call returns
            have childSupplied : Supplied children nodes (child :: found) := by
              refine ⟨fun other leads => ?_, supplied.mono (List.nil_subset _)⟩
              rw [mem_collect unchecked collected]
              refine ⟨fun same => ?_, reaches_of_acyclic acyclic childBranch leads⟩
              subst same
              exact acyclic _ leads
            refine loop _ final restListed (front.merge ?_) further
            rw [List.append_nil]
            exact childSupplied
      exact loop _ [] _ (fun _ inside => inside) trivial collected

/-! ## Termination -/

theorem collect_returns {pool : List ν} (listed : ∀ node, children node ≠ [] → node ∈ pool)
    (enough : (Traversal.unmarked pool seen).length < fuel) :
    ∃ nodes, collect children fuel node seen = some nodes := by
  induction fuel generalizing node seen with
  | zero => omega
  | succ fuel ih =>
    rw [collect_succ]
    split
    · exact ⟨[], rfl⟩
    · rename_i unseen
      by_cases isLeaf : children node = []
      · exact ⟨[], by simp [isLeaf]⟩
      · have fewer := Traversal.length_unmarked_lt (listed node isLeaf) unseen
        have loop : ∀ remaining found : List ν, ∃ final,
            remaining.foldlM (gather children fuel (seen ++ [node])) found = some final := by
          intro remaining
          induction remaining with
          | nil => exact fun found => ⟨found, rfl⟩
          | cons child remaining loop =>
            intro found
            by_cases isChecked : child ∈ seen ++ [node]
            · obtain ⟨final, returns⟩ := loop found
              exact ⟨final, foldlM_gather_cons.mpr (.inl ⟨isChecked, returns⟩)⟩
            · obtain ⟨nodes, collected⟩ : ∃ nodes, collect children fuel child (seen ++ [node]) = some nodes :=
                ih (by omega)
              obtain ⟨final, returns⟩ := loop (merge (child :: found) nodes)
              exact ⟨final, foldlM_gather_cons.mpr (.inr ⟨isChecked, nodes, collected, returns⟩)⟩
        exact loop _ _

end PathCollection
