import N8n.Library.Loop

/-! # Errors that a computation does not throw

Which error ended a computation tells where it was thrown, when every other
part of the computation avoids that error.
-/

namespace Errors

variable {ε : Type*} {α β : Type} {bad : ε}

/-- The computation does not throw the error. -/
def Avoids (bad : ε) (action : Except ε α) : Prop := action ≠ .error bad

theorem avoids_ok (value : α) : Avoids bad (.ok value : Except ε α) := nofun

theorem avoids_error {error : ε} (other : error ≠ bad) : Avoids bad (.error error : Except ε α) :=
  fun same => other (Except.error.inj same)

theorem Avoids.bind {action : Except ε α} {next : α → Except ε β} (first : Avoids bad action)
    (then_ : ∀ value, Avoids bad (next value)) : Avoids bad (action >>= next) := by
  cases action with
  | error error => exact avoids_error fun same => first (same ▸ rfl)
  | ok value => exact then_ value

theorem Avoids.map {action : Except ε α} {change : α → β} (avoids : Avoids bad action) :
    Avoids bad (action.map change) := by
  cases action with
  | error error => exact avoids_error fun same => avoids (same ▸ rfl)
  | ok value => exact avoids_ok _

theorem Avoids.ite {condition : Prop} [Decidable condition] {first second : Except ε α} (yes : Avoids bad first)
    (no : Avoids bad second) : Avoids bad (if condition then first else second) := by
  split
  · exact yes
  · exact no

theorem avoids_foldlM {γ : Type} {body : γ → α → Except ε γ} (each : ∀ state item, Avoids bad (body state item))
    (items : List α) (state : γ) : Avoids bad (items.foldlM body state) := by
  induction items generalizing state with
  | nil => exact avoids_ok state
  | cons item rest ih =>
    rw [List.foldlM_cons]
    exact (each state item).bind ih

theorem avoids_mapM {turn : α → Except ε β} (each : ∀ item, Avoids bad (turn item)) (items : List α) :
    Avoids bad (items.mapM turn) := by
  induction items with
  | nil => exact avoids_ok []
  | cons item rest ih =>
    rw [List.mapM_cons]
    exact (each item).bind fun result => ih.bind fun results => avoids_ok _

theorem avoids_anyM {test : α → Except ε Bool} (each : ∀ item, Avoids bad (test item)) (items : List α) :
    Avoids bad (items.anyM test) := by
  induction items with
  | nil => exact avoids_ok false
  | cons item rest ih =>
    refine (each item).bind fun found => ?_
    cases found with
    | true => exact avoids_ok true
    | false => exact ih

end Errors
