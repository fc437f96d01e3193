import Mathlib.Data.List.Basic

/-! # Cutting a list into pieces of one size

Pieces are cut off the front of a list, one after the other, until nothing is
left.  All of them have the size, the last one possibly excepted.
-/

namespace Pieces

variable {α β : Type*} {size : Nat} {items rest : List α} {pieces : List (List α)}

structure CutInto (size : Nat) (items : List α) (pieces : List (List α)) (rest : List α) : Prop where
  together : pieces.flatten ++ rest = items
  full : rest ≠ [] → ∀ piece ∈ pieces, piece.length = size
  allButLast : ∀ piece ∈ pieces.dropLast, piece.length = size

theorem cutInto_nil (size : Nat) (items : List α) : CutInto size items [] items where
  together := rfl
  full := fun _ _ member => absurd member List.not_mem_nil
  allButLast := fun _ member => absurd member List.not_mem_nil

theorem CutInto.next (cut : CutInto size items pieces rest) (more : rest ≠ []) :
    CutInto size items (pieces ++ [rest.take size]) (rest.drop size) := by
  have before : ∀ piece ∈ pieces, piece.length = size := cut.full more
  refine ⟨?_, ?_, ?_⟩
  · calc (pieces ++ [rest.take size]).flatten ++ rest.drop size
        = pieces.flatten ++ (rest.take size ++ rest.drop size) := by simp
      _ = pieces.flatten ++ rest := by rw [List.take_append_drop]
      _ = items := cut.together
  · intro left piece member
    obtain earlier | now := List.mem_append.mp member
    · exact before piece earlier
    · obtain rfl := List.mem_singleton.mp now
      rw [List.length_take]
      apply Nat.min_eq_left
      exact Nat.le_of_not_le fun short => left (List.drop_eq_nil_iff.mpr short)
  · intro piece member
    rw [List.dropLast_concat] at member
    exact before piece member

end Pieces
