import Mathlib.Data.List.Basic

/-! # Deleting positions one after the other

The positions of some items are collected first and then deleted in ascending
order, each where it was at first.  Every deletion moves the later items, so this
deletes the right items only when there is at most one.
-/

namespace Positions

variable {α : Type*}

def collect (test : α → Bool) (items : List α) : List Nat :=
  (List.range items.length).filter fun position => items[position]?.any test

def eraseEach (positions : List Nat) (items : List α) : List α := positions.foldl List.eraseIdx items

variable {test : α → Bool} {items : List α}

theorem mem_collect {position : Nat} :
    position ∈ collect test items ↔ ∃ item, items[position]? = some item ∧ test item := by
  rw [collect, List.mem_filter, List.mem_range]
  cases found : items[position]? with
  | none => simp
  | some item =>
    have within := (List.getElem?_eq_some_iff.mp found).1
    simp [within]

theorem eraseEach_sublist (positions : List Nat) (items : List α) : (eraseEach positions items).Sublist items := by
  induction positions generalizing items with
  | nil => exact List.Sublist.refl items
  | cons first rest ih =>
    exact (ih (items.eraseIdx first)).trans (List.eraseIdx_sublist items first)

/-- At each position that is left the item is deleted if it meets the test. -/
def eraseVisited (test : α → Bool) (positions : List Nat) (items : List α) : List α :=
  positions.foldl (fun current position =>
    if current[position]?.any test then current.eraseIdx position else current) items

theorem eraseVisited_succ {item : α} (positions : List Nat) :
    eraseVisited test (positions.map (· + 1)) (item :: items) = item :: eraseVisited test positions items := by
  induction positions generalizing items with
  | nil => rfl
  | cons position rest ih =>
    simp only [eraseVisited, List.map_cons, List.foldl_cons, List.getElem?_cons_succ, List.eraseIdx_cons_succ]
    split
    · exact ih
    · exact ih

theorem eraseVisited_of_none (none : ∀ item ∈ items, ¬test item) (positions : List Nat) :
    eraseVisited test positions items = items := by
  induction positions with
  | nil => rfl
  | cons position rest ih =>
    have meetsNot : items[position]?.any test = false := by
      cases found : items[position]? with
      | none => rfl
      | some item => simpa using none item (List.mem_of_getElem? found)
    rw [eraseVisited, List.foldl_cons, meetsNot]
    exact ih

theorem eraseVisited_of_le_one (atMost : items.countP test ≤ 1) :
    eraseVisited test (List.range items.length) items = items.filter (!test ·) := by
  induction items with
  | nil => rfl
  | cons item rest ih =>
    rw [List.length_cons, List.range_succ_eq_map]
    by_cases meets : test item
    · rw [List.countP_cons_of_pos meets] at atMost
      have noOther : ∀ other ∈ rest, ¬test other := List.countP_eq_zero.mp (by omega)
      have keepsRest : rest.filter (!test ·) = rest := by
        rw [List.filter_eq_self]
        intro other member
        simp [noOther other member]
      have first : eraseVisited test (0 :: (List.range rest.length).map Nat.succ) (item :: rest) =
          eraseVisited test ((List.range rest.length).map Nat.succ) rest := by
        simp [eraseVisited, meets]
      rw [first, eraseVisited_of_none noOther]
      simp [meets, keepsRest]
    · rw [List.countP_cons_of_neg meets] at atMost
      have first : eraseVisited test (0 :: (List.range rest.length).map Nat.succ) (item :: rest) =
          eraseVisited test ((List.range rest.length).map Nat.succ) (item :: rest) := by
        simp [eraseVisited, meets]
      rw [first]
      calc eraseVisited test ((List.range rest.length).map Nat.succ) (item :: rest)
          = item :: eraseVisited test (List.range rest.length) rest := eraseVisited_succ _
        _ = item :: rest.filter (!test ·) := by rw [ih atMost]
        _ = (item :: rest).filter (!test ·) := by simp [meets]

end Positions
