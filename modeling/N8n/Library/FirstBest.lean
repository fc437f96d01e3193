import Mathlib.Algebra.Order.Ring.Nat
import Mathlib.Data.List.Basic

/-! # The first of the best

Of the elements that pass a test, the first one with the largest measure.
-/

namespace FirstBest

variable {α : Type*} {test : α → Prop} {measure : α → Nat} {items : List α} {best item : α}

/-- The element passes, what passes before it measures less, and what passes after it does not measure more. -/
def IsFirstBest (test : α → Prop) (measure : α → Nat) (items : List α) (best : α) : Prop :=
  ∃ front back, items = front ++ best :: back ∧ test best ∧
    (∀ other ∈ front, test other → measure other < measure best) ∧
    ∀ other ∈ back, test other → measure other ≤ measure best

theorem IsFirstBest.mem (isBest : IsFirstBest test measure items best) : best ∈ items := by
  obtain ⟨front, back, rfl, _⟩ := isBest
  simp

theorem IsFirstBest.passes (isBest : IsFirstBest test measure items best) : test best := by
  obtain ⟨_, _, _, passes, _⟩ := isBest
  exact passes

theorem IsFirstBest.le (isBest : IsFirstBest test measure items best) (member : item ∈ items) (passes : test item) :
    measure item ≤ measure best := by
  obtain ⟨front, back, rfl, _, before, after⟩ := isBest
  obtain inFront | rfl | inBack := List.mem_append.mp member |>.imp_right List.mem_cons.mp
  · exact (before item inFront passes).le
  · exact le_rfl
  · exact after item inBack passes

theorem IsFirstBest.unique {best' : α} (isBest : IsFirstBest test measure items best)
    (isBest' : IsFirstBest test measure items best') : best = best' := by
  obtain ⟨front, back, rfl, passes, before, after⟩ := isBest
  obtain ⟨front', back', isSplit, passes', before', after'⟩ := isBest'
  obtain ⟨between, rfl, same⟩ | ⟨between, rfl, same⟩ := List.append_eq_append_iff.mp isSplit
  · cases between with
    | nil => exact (List.cons.inj same).1
    | cons first rest =>
      obtain ⟨rfl, rfl⟩ := List.cons.inj same
      have more := before' best (by simp) passes
      have less := after best' (by simp) passes'
      omega
  · cases between with
    | nil => exact (List.cons.inj same).1.symm
    | cons first rest =>
      obtain ⟨rfl, rfl⟩ := List.cons.inj same
      have more := before best' (by simp) passes'
      have less := after' best (by simp) passes
      omega

theorem IsFirstBest.append (isBest : IsFirstBest test measure items best)
    (notBetter : test item → measure item ≤ measure best) : IsFirstBest test measure (items ++ [item]) best := by
  obtain ⟨front, back, rfl, passes, before, after⟩ := isBest
  refine ⟨front, back ++ [item], by simp, passes, before, ?_⟩
  intro other member
  obtain earlier | now := List.mem_append.mp member
  · exact after other earlier
  · rw [List.mem_singleton.mp now]
    exact notBetter

theorem isFirstBest_append (passes : test item) (better : ∀ other ∈ items, test other → measure other < measure item) :
    IsFirstBest test measure (items ++ [item]) item :=
  ⟨items, [], rfl, passes, better, fun _ member => absurd member List.not_mem_nil⟩

end FirstBest
