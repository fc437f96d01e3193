import Mathlib.Data.List.Chain

/-! # A line that goes round

Whoever is first in line goes back to its end, turn after turn.  The line stops
when the one that is first has the same key as the one before.  Only the last
key is remembered, so a line in which neighbours differ goes round for ever.
-/

namespace Rotation

variable {κ : Type*}

/-- The line stops within a number of turns. -/
def StopsWithin : Nat → κ → List κ → Prop
  | 0, _, _ => False
  | _ + 1, _, [] => False
  | turns + 1, last, key :: rest => last = key ∨ StopsWithin turns key (rest ++ [key])

theorem stopsWithin_of_first {last key : κ} {rest : List κ} (turns : Nat) (same : last = key) :
    StopsWithin (turns + 1) last (key :: rest) := .inl same

variable {last : κ}

/-- A key that comes twice in a row stops the line when its turn comes. -/
theorem stopsWithin_of_not_isChain {front back : List κ} (twice : ¬ (last :: front).IsChain (· ≠ ·)) :
    StopsWithin front.length last (front ++ back) := by
  induction front generalizing last back with
  | nil => exact absurd (List.isChain_singleton last) twice
  | cons key rest ih =>
    rw [List.isChain_cons_cons, not_and_or, not_not] at twice
    obtain same | later := twice
    · exact .inl same
    · refine .inr ?_
      have stops := @ih key (back ++ [key]) later
      rwa [← List.append_assoc] at stops

theorem stopsWithin_of_rotated {turns : Nat} {front back : List κ}
    (stops : StopsWithin turns (front.getLastD last) (back ++ front)) :
    StopsWithin (front.length + turns) last (front ++ back) := by
  induction front generalizing last back with
  | nil => simpa using stops
  | cons key rest ih =>
    rw [List.length_cons, Nat.add_right_comm]
    refine .inr ?_
    rw [List.getLastD_cons, ← List.singleton_append, ← List.append_assoc] at stops
    have later := ih stops
    rwa [← List.append_assoc] at later

/-- The keys that follow each other in the first round, from the last key on to the first one of the line again. -/
def round (last : κ) (line : List κ) : List κ := last :: (line ++ line.head?.toList)

variable {line : List κ}

theorem isChain_concat_iff {related : κ → κ → Prop} {first last : κ} :
    (first :: (line ++ [last])).IsChain related ↔
      (first :: line).IsChain related ∧ related (line.getLastD first) last := by
  induction line generalizing first with
  | nil => simp
  | cons key rest ih =>
    rw [List.cons_append, List.isChain_cons_cons, List.isChain_cons_cons, ih, List.getLastD_cons,
      and_assoc]

/-- A round in which neighbours differ is followed by another one. -/
theorem not_stopsWithin_of_isChain {turns : Nat} (differ : (round last line).IsChain (· ≠ ·)) :
    ¬ StopsWithin turns last line := by
  induction turns generalizing last line with
  | zero => exact id
  | succ turns ih =>
    cases line with
    | nil => exact id
    | cons key rest =>
      obtain ⟨first, others⟩ := List.isChain_cons_cons.mp differ
      rintro (same | later)
      · exact first same
      · refine ih ?_ later
        cases rest with
        | nil => exact absurd rfl (List.isChain_cons_cons.mp others).1
        | cons next rest =>
          have second := (List.isChain_cons_cons.mp others).1
          -- the key that went back to the end is followed by the one that is first now
          refine isChain_concat_iff.mpr ⟨others, ?_⟩
          rwa [List.getLastD_concat]

/-- The line stops exactly when a key comes twice in a row in the first round, and within the turns of that round. -/
theorem stopsWithin_iff (notEmpty : line ≠ []) :
    (∃ turns, StopsWithin turns last line) ↔ ¬ (round last line).IsChain (· ≠ ·) := by
  constructor
  · rintro ⟨turns, stops⟩ differ
    exact not_stopsWithin_of_isChain differ stops
  · intro twice
    by_cases within : (last :: line).IsChain (· ≠ ·)
    · obtain ⟨key, rest, rfl⟩ := List.exists_cons_of_ne_nil notEmpty
      have same : (key :: rest).getLastD last = key :=
        not_not.mp fun differ => twice (isChain_concat_iff.mpr ⟨within, differ⟩)
      have again : StopsWithin 1 ((key :: rest).getLastD last) ([] ++ key :: rest) := stopsWithin_of_first 0 same
      exact ⟨_, List.append_nil (key :: rest) ▸ stopsWithin_of_rotated again⟩
    · exact ⟨_, List.append_nil line ▸ stopsWithin_of_not_isChain within⟩

end Rotation
