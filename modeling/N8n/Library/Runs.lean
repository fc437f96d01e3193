import Mathlib.Data.List.Basic

/-! # Runs of a state machine

A machine takes one event after another.  What holds in every state of a run
follows from an invariant, and what holds exactly as long as every step meets a
condition from a statement about one step.
-/

namespace Runs

variable {σ ε : Type*} {step : σ → ε → σ}

/-- Every step of the run meets a condition on the event and the state before it. -/
def Every (step : σ → ε → σ) (condition : σ → ε → Prop) : σ → List ε → Prop
  | _, [] => True
  | state, event :: rest => condition state event ∧ Every step condition (step state event) rest

/-- A property of every state of the run, the first one and the last one included. -/
def Always (step : σ → ε → σ) (property : σ → Prop) : σ → List ε → Prop
  | state, [] => property state
  | state, event :: rest => property state ∧ Always step property (step state event) rest

instance {condition : σ → ε → Prop} [∀ state event, Decidable (condition state event)] :
    (state : σ) → (events : List ε) → Decidable (Every step condition state events)
  | _, [] => inferInstanceAs (Decidable True)
  | state, event :: rest =>
    have : Decidable (Every step condition (step state event) rest) := instDecidableEvery (step state event) rest
    inferInstanceAs (Decidable (_ ∧ _))

variable {condition : σ → ε → Prop} {state : σ}

@[simp] theorem every_nil : Every step condition state [] := trivial

@[simp] theorem every_cons {event : ε} {rest : List ε} :
    Every step condition state (event :: rest) ↔
      condition state event ∧ Every step condition (step state event) rest := Iff.rfl

theorem every_append {first second : List ε} :
    Every step condition state (first ++ second) ↔
      Every step condition state first ∧ Every step condition (first.foldl step state) second := by
  induction first generalizing state with
  | nil => simp
  | cons event rest ih =>
    simp only [List.cons_append, every_cons, List.foldl_cons, ih, and_assoc]

theorem every_true (state : σ) (events : List ε) : Every step (fun _ _ => True) state events := by
  induction events generalizing state with
  | nil => trivial
  | cons event rest ih => exact ⟨trivial, ih _⟩

variable {events : List ε}

theorem Always.start {property : σ → Prop} (always : Always step property state events) :
    property state := by
  cases events with
  | nil => exact always
  | cons event rest => exact always.1

theorem Always.imp {property property' : σ → Prop} (weaker : ∀ state, property state → property' state)
    (always : Always step property state events) : Always step property' state events := by
  induction events generalizing state with
  | nil => exact weaker _ always
  | cons event rest ih => exact ⟨weaker _ always.1, ih always.2⟩

theorem Always.final {property : σ → Prop} (always : Always step property state events) :
    property (events.foldl step state) := by
  induction events generalizing state with
  | nil => exact always
  | cons event rest ih => exact ih always.2

/-- An invariant that holds at first and is kept by every step that meets the condition always holds. -/
theorem always_of_invariant {condition : σ → ε → Prop} {invariant : σ → Prop}
    (kept : ∀ state event, condition state event → invariant state → invariant (step state event))
    {state : σ} {events : List ε} (start : invariant state) (every : Every step condition state events) :
    Always step invariant state events := by
  induction events generalizing state with
  | nil => exact start
  | cons event rest ih =>
    exact ⟨start, ih (kept state event every.1 start) every.2⟩

/-- A condition that steps meet as long as an invariant holds, which is kept by steps that meet another one. -/
theorem every_of_invariant {first second : σ → ε → Prop} {invariant : σ → Prop}
    (kept : ∀ state event, first state event → invariant state → invariant (step state event))
    (implies : ∀ state event, first state event → invariant state → second state event) (start : invariant state)
    (every : Every step first state events) :
    Every step second state events := by
  induction events generalizing state with
  | nil => trivial
  | cons event rest ih =>
    exact ⟨implies state event every.1 start, ih (kept state event every.1 start) every.2⟩

/-- A property follows from an invariant that a step keeps when it meets a condition, and it is lost in every other
step.  Then it always holds exactly in the runs whose steps all meet the condition. -/
theorem always_iff_every_of_lost {allowed condition : σ → ε → Prop} {invariant property : σ → Prop}
    (implies : ∀ state, invariant state → property state)
    (kept : ∀ state event, allowed state event → condition state event → invariant state →
      invariant (step state event))
    (lost : ∀ state event, allowed state event → ¬ condition state event → invariant state →
      ¬ property (step state event))
    {state : σ} {events : List ε} (start : invariant state) (run : Every step allowed state events) :
    Always step property state events ↔ Every step condition state events := by
  induction events generalizing state with
  | nil => exact iff_of_true (implies state start) trivial
  | cons event rest ih =>
    constructor
    · rintro ⟨_, later⟩
      have met : condition state event := by
        by_contra notMet
        exact lost state event run.1 notMet start later.start
      exact ⟨met, (ih (kept _ _ run.1 met start) run.2).mp later⟩
    · rintro ⟨met, later⟩
      exact ⟨implies state start, (ih (kept _ _ run.1 met start) run.2).mpr later⟩

/-- A property that a step keeps exactly when the step meets a condition always holds exactly in the runs whose steps
all meet the condition. -/
theorem always_iff_every {allowed condition : σ → ε → Prop} {invariant property : σ → Prop}
    (kept : ∀ state event, allowed state event → invariant state → invariant (step state event))
    (precise : ∀ state event, allowed state event → invariant state → property state →
      (property (step state event) ↔ condition state event))
    {state : σ} {events : List ε} (start : invariant state) (holds : property state)
    (run : Every step allowed state events) :
    Always step property state events ↔ Every step condition state events := by
  have both : ∀ state event, allowed state event → invariant state ∧ property state →
      (property (step state event) ↔ condition state event) := fun state event may held =>
    precise state event may held.1 held.2
  exact @always_iff_every_of_lost _ _ _ allowed condition (fun state => invariant state ∧ property state) property
    (fun _ held => held.2)
    (fun state event may met held => ⟨kept state event may held.1, (both state event may held).mpr met⟩)
    (fun state event may notMet held later => notMet ((both state event may held).mp later)) _ _ ⟨start, holds⟩ run

theorem always_iff_every_of_kept {condition : σ → ε → Prop} {invariant property : σ → Prop}
    (kept : ∀ state event, invariant state → invariant (step state event))
    (precise : ∀ state event, invariant state → property state → (property (step state event) ↔ condition state event))
    {state : σ} (start : invariant state) (holds : property state) (events : List ε) :
    Always step property state events ↔ Every step condition state events :=
  @always_iff_every _ _ step (fun _ _ => True) condition invariant property (fun state event _ => kept state event)
    (fun state event _ => precise state event) _ _ start holds (every_true state events)

/-- Two conditions on a step that agree as long as an invariant holds are met by the same runs.  The second one may be
needed to keep the invariant. -/
theorem every_iff_every_of_kept {first second : σ → ε → Prop} {invariant : σ → Prop}
    (kept : ∀ state event, second state event → invariant state → invariant (step state event))
    (same : ∀ state event, invariant state → (first state event ↔ second state event))
    {state : σ} (start : invariant state) (events : List ε) :
    Every step first state events ↔ Every step second state events := by
  induction events generalizing state with
  | nil => exact Iff.rfl
  | cons event rest ih =>
    constructor
    · rintro ⟨met, later⟩
      have met := (same state event start).mp met
      exact ⟨met, (ih (kept state event met start)).mp later⟩
    · rintro ⟨met, later⟩
      exact ⟨(same state event start).mpr met, (ih (kept state event met start)).mpr later⟩

theorem every_iff_every {first second : σ → ε → Prop} {invariant : σ → Prop}
    (kept : ∀ state event, invariant state → invariant (step state event))
    (same : ∀ state event, invariant state → (first state event ↔ second state event))
    {state : σ} (start : invariant state) (events : List ε) :
    Every step first state events ↔ Every step second state events :=
  every_iff_every_of_kept (fun state event _ => kept state event) same start events

end Runs
