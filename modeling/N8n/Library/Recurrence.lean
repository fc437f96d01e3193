import Mathlib.Data.Int.ConditionallyCompleteOrder
import Mathlib.Order.ConditionallyCompleteLattice.Basic
import Mathlib.Order.Monotone.Basic
import Mathlib.Data.Int.ModEq
import Mathlib.Data.Nat.Find

/-! # Filters on ticks

A filter sees one tick after another, each in some period, and remembers a value
of the last tick that it has let through.  A tick is let through when nothing is
remembered yet or when its own value is accepted after the remembered one.
-/

namespace Recurrence

/-- The first tick is let through, and after each one that is the next one in a later period is the first tick
`interval` periods later. -/
def RecursEvery (interval : Int) (period : Nat → Int) (letThrough : Nat → Bool) : Prop :=
  letThrough 0 = true ∧ ∀ tick, letThrough tick = true → ∃ next, tick < next ∧ letThrough next = true ∧
    period next = period tick + interval ∧ (∀ earlier < next, period earlier < period next) ∧
    ∀ between, tick < between → between < next → letThrough between = true → period between = period tick

/-- When every tick is let through, the ticks only have to be in the right periods. -/
theorem recursEvery_of_all {interval : Int} {period : Nat → Int} {letThrough : Nat → Bool}
    (monotone : Monotone period) (positive : 0 < interval) (all : ∀ tick, letThrough tick = true)
    (reaches : ∀ tick, ∃ next, period next = period tick + interval)
    (apart : ∀ first second, period first < period second → period first + interval ≤ period second) :
    RecursEvery interval period letThrough := by
  refine ⟨all 0, fun tick _ => ?_⟩
  have isNext := Nat.find_spec (reaches tick)
  have notBefore (earlier : Nat) (before : earlier < Nat.find (reaches tick)) :
      period earlier < period (Nat.find (reaches tick)) := by
    have different : period earlier ≠ period tick + interval := Nat.find_min (reaches tick) before
    have ordered := monotone (Nat.le_of_lt before)
    omega
  refine ⟨Nat.find (reaches tick), ?_, all _, isNext, notBefore, ?_⟩
  · by_contra notLater
    have ordered := monotone (Nat.le_of_not_lt notLater)
    omega
  · intro between later before _
    have ordered := monotone (Nat.le_of_lt later)
    have below := notBefore between before
    have gap := apart tick between
    omega

/-- When there is one tick in every period of a progression and none in the others, the next tick is in the next one
of them. -/
theorem period_succ {interval : Int} {period : Nat → Int} (strictMono : StrictMono period)
    (reaches : ∀ tick, ∃ next, period next = period tick + interval) (positive : 0 < interval)
    (apart : ∀ first second, period first < period second → period first + interval ≤ period second) (tick : Nat) :
    period (tick + 1) = period tick + interval := by
  obtain ⟨next, isNext⟩ := reaches tick
  have later : tick < next := strictMono.lt_iff_lt.mp (by omega)
  have notAfter : period (tick + 1) ≤ period next := strictMono.monotone (Nat.succ_le_of_lt later)
  have gap := apart tick (tick + 1) (strictMono (Nat.lt_succ_self tick))
  omega

section

variable {ν : Type*} (accepts : ν → ν → Bool) (value : Nat → ν)

def isLetThrough (last : Option ν) (value : ν) : Bool :=
  match last with
  | none => true
  | some last => accepts last value

def remembered : Nat → Option ν
  | 0 => none
  | tick + 1 =>
    if isLetThrough accepts (remembered tick) (value tick) then some (value tick) else remembered tick

def letThrough (tick : Nat) : Bool := isLetThrough accepts (remembered accepts value tick) (value tick)

variable {accepts value}

theorem remembered_of_letThrough {tick : Nat} (isLet : letThrough accepts value tick = true) :
    remembered accepts value (tick + 1) = some (value tick) :=
  if_pos isLet

/-- As long as only ticks with the remembered value are let through, that value is remembered. -/
theorem remembered_of_between {first last : Nat} {kept : ν} (ordered : first ≤ last)
    (start : remembered accepts value first = some kept)
    (same : ∀ between, first ≤ between → between < last → letThrough accepts value between = true →
      value between = kept) : remembered accepts value last = some kept := by
  induction last, ordered using Nat.le_induction with
  | base => exact start
  | succ last ordered ih =>
    have before := ih fun between notBefore less =>
      same between notBefore (Nat.lt_succ_of_lt less)
    rw [remembered]
    split
    next isLet => rw [same last ordered (Nat.lt_succ_self last) isLet]
    next => exact before

/-- A filter that recurs lets ticks through in all periods of a progression. -/
theorem RecursEvery.reaches {interval : Int} {period : Nat → Int} {letThrough : Nat → Bool}
    (recurs : RecursEvery interval period letThrough) (count : Nat) :
    ∃ tick, letThrough tick = true ∧ period tick = period 0 + interval * count := by
  obtain ⟨first, later⟩ := recurs
  induction count with
  | zero => exact ⟨0, first, by simp⟩
  | succ count ih =>
    obtain ⟨tick, isLet, isPeriod⟩ := ih
    obtain ⟨next, -, isNext, isNextPeriod, -⟩ := later tick isLet
    refine ⟨next, isNext, ?_⟩
    rw [isNextPeriod, isPeriod, Int.natCast_succ, Int.mul_add, Int.mul_one, Int.add_assoc]

/-- And where it compares values of the periods, each value of the progression is accepted after the one before. -/
theorem RecursEvery.accepts_next {interval : Int} {period : Nat → Int} {valueOf : Int → ν}
    (recurs : RecursEvery interval period (letThrough accepts fun tick => valueOf (period tick))) (count : Nat) :
    accepts (valueOf (period 0 + interval * count)) (valueOf (period 0 + interval * (count + 1))) = true := by
  obtain ⟨tick, isLet, isPeriod⟩ := recurs.reaches count
  obtain ⟨next, after, isNext, isNextPeriod, -, between⟩ := recurs.2 tick isLet
  have isRemembered : remembered accepts (fun tick => valueOf (period tick)) next = some (valueOf (period tick)) :=
    remembered_of_between after (remembered_of_letThrough isLet)
      fun other notBefore less isOther => congrArg valueOf (between other notBefore less isOther)
  rw [letThrough, isRemembered, isNextPeriod, isPeriod] at isNext
  rw [Int.mul_add, Int.mul_one, ← Int.add_assoc]
  exact isNext

theorem letThrough_of_accepts (next : ∀ tick, accepts (value tick) (value (tick + 1)) = true) (tick : Nat) :
    letThrough accepts value tick = true := by
  induction tick with
  | zero => rfl
  | succ tick ih =>
    rw [letThrough, remembered_of_letThrough ih]
    exact next tick

end

/-! ## Residues -/

/-- A progression whose residues are all multiples of its step has a step that divides the modulus. -/
theorem dvd_of_residues {interval modulus start : Int} (positive : 0 < interval) (bound : interval ≤ modulus)
    (residues : ∀ count : Nat, interval ∣ (start + interval * count) % modulus) : interval ∣ modulus := by
  have first : interval ∣ start % modulus := by simpa using residues 0
  have starts := Int.emod_nonneg start (show modulus ≠ 0 by omega)
  have ends := Int.emod_lt_of_pos start (show 0 < modulus by omega)
  -- the first term at or past the next multiple of the modulus
  have quotient := Int.mul_ediv_add_emod (modulus - 1 - start % modulus) interval
  have remainder := Int.emod_nonneg (modulus - 1 - start % modulus) (show interval ≠ 0 by omega)
  have remainder' := Int.emod_lt_of_pos (modulus - 1 - start % modulus) positive
  have count := Int.ediv_nonneg (show 0 ≤ modulus - 1 - start % modulus by omega) (Int.le_of_lt positive)
  obtain ⟨steps, isSteps⟩ := Int.eq_ofNat_of_zero_le count
  rw [isSteps] at quotient
  have wrapped := residues (steps + 1)
  have isTerm : start + interval * ((steps + 1 : Nat) : Int) =
      (start % modulus + (interval * steps + interval) - modulus) + modulus * (start / modulus + 1) := by
    have whole := Int.mul_ediv_add_emod start modulus
    rw [Int.natCast_succ, Int.mul_add, Int.mul_add]
    omega
  rw [isTerm, Int.add_mul_emod_self_left, Int.emod_eq_of_lt (by omega) (by omega)] at wrapped
  have steps : interval ∣ start % modulus + (interval * steps + interval) :=
    Int.dvd_add first (Int.dvd_add (Int.dvd_mul_right _ _) (Int.dvd_refl _))
  have difference := Int.dvd_sub steps wrapped
  rwa [Int.sub_sub_self] at difference

/-- A sequence that grows by a step modulo something, and comes back to its start. -/
theorem dvd_mul_of_returns {values : Nat → Nat} {interval modulus count : Nat}
    (grows : ∀ index, values (index + 1) = (interval + values index) % modulus)
    (returns : values count = values 0) : modulus ∣ interval * count := by
  have grown (index : Nat) : values index ≡ values 0 + interval * index [MOD modulus] := by
    induction index with
    | zero => rfl
    | succ index ih =>
      rw [grows index]
      refine (Nat.mod_modEq _ _).trans ?_
      refine (ih.add_left interval).trans ?_
      rw [Nat.mul_succ, Nat.add_left_comm, Nat.add_comm interval]
  have same := grown count
  rw [returns] at same
  exact (Nat.modEq_zero_iff_dvd.mp (Nat.ModEq.add_left_cancel' (values 0) same.symm))

end Recurrence
