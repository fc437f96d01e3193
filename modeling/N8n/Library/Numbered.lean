import Mathlib.Data.List.Basic

/-! # Numbered records

A list that grows at its end only: every record keeps its number.
-/

namespace Numbered

variable {α : Type*}

variable {records : List α} {number : Nat}

theorem concat_of_some {found : α} (isRecord : records[number]? = some found) (added : α) :
    (records ++ [added])[number]? = some found := by
  rw [List.getElem?_append_left (List.getElem?_eq_some_iff.mp isRecord).1]
  exact isRecord

theorem concat_iff {added found : α} :
    (records ++ [added])[number]? = some found ↔
      records[number]? = some found ∨ (number = records.length ∧ found = added) := by
  constructor
  · intro isRecord
    by_cases before : number < records.length
    · exact .inl (by rwa [List.getElem?_append_left before] at isRecord)
    · have inside := (List.getElem?_eq_some_iff.mp isRecord).1
      rw [List.length_append, List.length_singleton] at inside
      have atEnd : number = records.length := by omega
      subst atEnd
      exact .inr ⟨rfl, by simpa using isRecord.symm⟩
  · rintro (isRecord | ⟨rfl, rfl⟩)
    · exact concat_of_some isRecord added
    · simp

/-- A change that is made to a record once or more often, when the second time adds nothing. -/
theorem foldl_modify {change : α → α} (again : ∀ record, change (change record) = change record) (numbers : List Nat)
    (records : List α) (number : Nat) :
    (numbers.foldl (fun records number => records.modify number change) records)[number]? =
      records[number]?.map fun record => if number ∈ numbers then change record else record := by
  induction numbers generalizing records with
  | nil => simp
  | cons first rest ih =>
    rw [List.foldl_cons, ih, List.getElem?_modify]
    cases records[number]? with
    | none => rfl
    | some record =>
      by_cases same : first = number
      · subst same
        by_cases later : first ∈ rest <;> simp [later, again]
      · simp [same, Ne.symm same]

theorem modify_of_some {record : α} (isRecord : records[number]? = some record) (change : α → α) (other : Nat) :
    (records.modify number change)[other]? = if other = number then some (change record) else records[other]? := by
  rw [List.getElem?_modify]
  split
  · rename_i same
    subst same
    simp [isRecord]
  · rename_i different
    simp [Ne.symm different]

theorem countP_modify {record : α} (isRecord : records[number]? = some record) (change : α → α) (test : α → Bool) :
    (records.modify number change).countP test + (if test record then 1 else 0) =
      records.countP test + (if test (change record) then 1 else 0) := by
  induction records generalizing number with
  | nil => cases isRecord
  | cons first rest ih =>
    cases number with
    | zero =>
      obtain rfl := Option.some.inj isRecord
      simp only [List.modify_zero_cons, List.countP_cons]
      omega
    | succ number =>
      have later := @ih number isRecord
      simp only [List.modify_succ_cons, List.countP_cons]
      omega

theorem countP_modify_le (records : List α) (number : Nat) {change : α → α} {test : α → Bool}
    (fewer : ∀ record, test (change record) = true → test record = true) :
    (records.modify number change).countP test ≤ records.countP test := by
  cases isRecord : records[number]? with
  | none =>
    have same : records.modify number change = records :=
      List.modify_eq_self (List.getElem?_eq_none_iff.mp isRecord)
    exact Nat.le_of_eq (congrArg (List.countP test) same)
  | some record =>
    have counts := countP_modify isRecord change test
    by_cases after : test (change record) = true
    · rw [if_pos after, if_pos (fewer record after)] at counts
      omega
    · rw [if_neg after] at counts
      omega

end Numbered
