import N8n.Library.PathCollection

/-! # Searches that share their checked nodes

A search that checks a node once, whatever branch comes by it first, reaches
from one child after the other what no earlier child reached.  `covered_cons`
splits what a list of children reaches accordingly; only the nodes with
children of their own are kept as checked.
-/

namespace SharedSearch

open PathCollection (Onward Reaches)

variable {ν : Type*} {children : ν → List ν} {kept : ν → Prop}

/-- Reached from one of the nodes that are not checked, without passing a checked one. -/
def Covered (children : ν → List ν) (checked starts : List ν) (node : ν) : Prop :=
  ∃ start ∈ starts, start ∉ checked ∧ Reaches children checked start node

theorem reaches_mono {checked checked' : List ν} (fewer : checked ⊆ checked') {node other : ν}
    (reaches : Reaches children checked' node other) : Reaches children checked node other := by
  apply Relation.ReflTransGen.mono _ _ _ reaches
  intro first second step
  exact ⟨step.1, fun inside => step.2 (fewer inside)⟩

theorem reaches_of_leaf {checked : List ν} {node other : ν} (isLeaf : children node = [])
    (reaches : Reaches children checked node other) : other = node := by
  cases Relation.ReflTransGen.cases_head reaches with
  | inl same => exact same.symm
  | inr step =>
    obtain ⟨child, ⟨isChild, _⟩, _⟩ := step
    rw [isLeaf] at isChild
    cases isChild

theorem Covered.unchecked {checked starts : List ν} {node : ν} (covered : Covered children checked starts node) :
    node ∉ checked := by
  obtain ⟨start, _, unchecked, reaches⟩ := covered
  cases Relation.ReflTransGen.cases_tail reaches with
  | inl same => exact same ▸ unchecked
  | inr step =>
    obtain ⟨_, _, last⟩ := step
    exact last.2

/-- What the first child reaches, with its nodes checked, and what the others still reach then. -/
theorem covered_cons {checked checked' rest : List ν} {first node : ν}
    (grown : ∀ other, other ∈ checked' ↔ other ∈ checked ∨ kept other ∧ Covered children checked [first] other) :
    Covered children checked (first :: rest) node ↔
      Covered children checked [first] node ∨ Covered children checked' rest node := by
  have subset : checked ⊆ checked' := fun other inside => (grown other).mpr (.inl inside)
  constructor
  · intro covered
    obtain ⟨start, inside, unchecked, reaches⟩ := covered
    cases List.mem_cons.mp inside with
    | inl isFirst => exact .inl ⟨first, List.mem_singleton_self _, isFirst ▸ unchecked, isFirst ▸ reaches⟩
    | inr inRest =>
      -- along the way: as soon as it comes to a newly checked node, the first child covers the rest
      have newly : ∀ other, other ∉ checked → other ∈ checked' → Covered children checked [first] other :=
        fun other before after => (((grown other).mp after).resolve_left before).2
      induction reaches with
      | refl =>
        by_cases isChecked : start ∈ checked'
        · exact .inl (newly start unchecked isChecked)
        · exact .inr ⟨start, inRest, isChecked, .refl⟩
      | @tail last next _ step ih =>
        cases ih with
        | inl covered =>
          obtain ⟨start, isStart, startUnchecked, before⟩ := covered
          exact .inl ⟨start, isStart, startUnchecked, before.tail step⟩
        | inr further =>
          obtain ⟨start, isStart, startUnchecked, before⟩ := further
          by_cases isChecked : next ∈ checked'
          · exact .inl (newly next step.2 isChecked)
          · exact .inr ⟨start, isStart, startUnchecked, before.tail ⟨step.1, isChecked⟩⟩
  · intro either
    cases either with
    | inl covered =>
      obtain ⟨start, isStart, unchecked, reaches⟩ := covered
      obtain rfl := List.mem_singleton.mp isStart
      exact ⟨start, List.mem_cons_self, unchecked, reaches⟩
    | inr covered =>
      obtain ⟨start, isStart, unchecked, reaches⟩ := covered
      exact ⟨start, List.mem_cons_of_mem _ isStart, fun inside => unchecked (subset inside),
        reaches_mono subset reaches⟩

/-- A checked first child reaches nothing. -/
theorem covered_cons_of_checked {checked rest : List ν} {first node : ν} (isChecked : first ∈ checked) :
    Covered children checked (first :: rest) node ↔ Covered children checked rest node := by
  simp [Covered, isChecked]

end SharedSearch
