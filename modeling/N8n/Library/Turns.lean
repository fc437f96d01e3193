import Mathlib.Algebra.Order.Ring.Nat
import Mathlib.Tactic.Ring

/-! # Loops without a bound

A `while` loop takes turn after turn until one of them ends it.  A run with fuel
gives the result of the loop when the fuel is enough, and a potential that
cannot grow, with a countdown that only a smaller potential winds up again,
bounds the number of turns.
-/

namespace Turns

variable {σ ρ : Type*} {turn : σ → ρ ⊕ σ}

inductive Goes (turn : σ → ρ ⊕ σ) (state : σ) : Nat → σ → Prop
  | refl : Goes turn state 0 state
  | turn {turns : Nat} {before after : σ} :
    Goes turn state turns before → turn before = .inr after → Goes turn state (turns + 1) after

/-- The loop ends with a result, in the given number of turns. -/
inductive Ends (turn : σ → ρ ⊕ σ) : Nat → σ → ρ → Prop
  | now {state : σ} {result : ρ} : turn state = .inl result → Ends turn 1 state result
  | later {turns : Nat} {state next : σ} {result : ρ} :
    turn state = .inr next → Ends turn turns next result → Ends turn (turns + 1) state result

theorem Goes.ends {turns more : Nat} {state next : σ} {result : ρ} (goes : Goes turn state turns next)
    (ends : Ends turn more next result) : Ends turn (turns + more) state result := by
  induction goes generalizing more with
  | refl => rwa [Nat.zero_add]
  | turn _ step ih =>
    rw [Nat.add_assoc, Nat.add_comm 1]
    exact ih (.later step ends)

variable {state : σ} {result : ρ}

theorem Ends.run {run : Nat → σ → ρ} (unfold : ∀ fuel state, run (fuel + 1) state = (turn state).elim id (run fuel))
    {turns fuel : Nat} (ends : Ends turn turns state result) (enough : turns ≤ fuel) :
    run fuel state = result := by
  induction ends generalizing fuel with
  | now stops =>
    obtain ⟨fuel, rfl⟩ := Nat.exists_eq_add_of_le' enough
    rw [unfold, stops]
    rfl
  | later step _ ih =>
    obtain ⟨fuel, rfl⟩ := Nat.exists_eq_add_of_le' enough
    rw [← Nat.add_assoc, unfold, step]
    exact ih (by omega)

/-- The result that the loop has within the fuel, if it has one. -/
def run (turn : σ → ρ ⊕ σ) : Nat → σ → Option ρ
  | 0, _ => none
  | fuel + 1, state => (turn state).elim some (run turn fuel)

/-- Some fuel gives the result exactly when the loop ends with it. -/
theorem exists_run_eq_some_iff :
    (∃ fuel, run turn fuel state = some result) ↔ ∃ turns, Ends turn turns state result := by
  constructor
  · intro ⟨fuel, returns⟩
    induction fuel generalizing state with
    | zero => cases returns
    | succ fuel ih =>
      rw [run] at returns
      cases step : turn state with
      | inl stops =>
        rw [step] at returns
        exact ⟨1, .now (step.trans (congrArg Sum.inl (Option.some.inj returns)))⟩
      | inr next =>
        rw [step] at returns
        obtain ⟨turns, ends⟩ := ih returns
        exact ⟨turns + 1, .later step ends⟩
  · intro ⟨turns, ends⟩
    refine ⟨turns, ?_⟩
    induction ends with
    | now stops => rw [run, stops]; rfl
    | later step _ ih => rw [run, step]; exact ih

/-- A loop whose every turn leads to another one does not end. -/
theorem not_ends_of_invariant {invariant : σ → Prop}
    (each : ∀ state, invariant state → ∃ next, turn state = .inr next ∧ invariant next) {turns : Nat}
    (start : invariant state) : ¬ Ends turn turns state result := by
  intro ends
  induction ends with
  | now stops =>
    obtain ⟨next, step, _⟩ := each _ start
    exact absurd (stops.symm.trans step) nofun
  | later step _ ih =>
    obtain ⟨next, step', kept⟩ := each _ start
    obtain rfl := Sum.inr.inj (step'.symm.trans step)
    exact ih kept

/-- A loop ends when an invariant holds and every turn that does not end it makes a potential smaller, or leaves
the potential as it is and makes a countdown smaller. -/
theorem ends_of_potential {invariant : σ → Prop} {potential countdown : σ → Nat} {bound : Nat} {final : ρ → Prop}
    (each : ∀ state, invariant state →
      (∃ result, turn state = .inl result ∧ final result) ∨
      ∃ next, turn state = .inr next ∧ invariant next ∧
        (potential next < potential state ∧ countdown next ≤ bound ∨
          potential next ≤ potential state ∧ countdown next < countdown state)) (start : invariant state) :
    ∃ turns ≤ potential state * (bound + 1) + countdown state + 1, ∃ result, Ends turn turns state result ∧
      final result := by
  -- the induction is on the bound itself, which every turn makes smaller
  generalize size : potential state * (bound + 1) + countdown state = left
  induction left using Nat.strong_induction_on generalizing state with
  | _ left ih =>
    obtain ⟨result, stops, meant⟩ | ⟨next, step, kept, smaller⟩ := each state start
    · exact ⟨1, by omega, result, .now stops, meant⟩
    · have less : potential next * (bound + 1) + countdown next < left := by
        obtain ⟨drops, below⟩ | ⟨stays, below⟩ := smaller
        · have scaled : (potential next + 1) * (bound + 1) ≤ potential state * (bound + 1) :=
            Nat.mul_le_mul_right _ drops
          rw [Nat.succ_mul] at scaled
          omega
        · have scaled : potential next * (bound + 1) ≤ potential state * (bound + 1) :=
            Nat.mul_le_mul_right _ stays
          omega
      obtain ⟨turns, few, result, ends, meant⟩ := ih _ less kept rfl
      exact ⟨turns + 1, by omega, result, .later step ends, meant⟩

end Turns
