import Mathlib.Data.List.Nodup
import Mathlib.Data.Finset.Card
import Mathlib.Data.Nat.Find

/-! # Distances in a directed graph

`At arc source distance node`: a shortest way from the source to the node takes
`distance` steps.  A search by levels goes from the nodes at one distance to
their successors that are at no smaller one; a graph with finitely many nodes
with successors has finitely many levels.
-/

namespace Distance

variable {ν : Type*} {arc : ν → ν → Prop} {source : ν}

/-- A walk of that many steps leads from the source to the node. -/
inductive Within (arc : ν → ν → Prop) (source : ν) : Nat → ν → Prop where
  | here : Within arc source 0 source
  | step {steps : Nat} {node next : ν} (onwards : Within arc source steps node) (leads : arc node next) :
      Within arc source (steps + 1) next

def At (arc : ν → ν → Prop) (source : ν) (distance : Nat) (node : ν) : Prop :=
  Within arc source distance node ∧ ∀ steps, Within arc source steps node → distance ≤ steps

variable {node : ν}

theorem At.unique {first second : Nat} (atFirst : At arc source first node) (atSecond : At arc source second node) :
    first = second :=
  Nat.le_antisymm (atFirst.2 _ atSecond.1) (atSecond.2 _ atFirst.1)

theorem at_source : At arc source 0 source := ⟨.here, fun _ _ => Nat.zero_le _⟩

theorem at_zero_iff : At arc source 0 node ↔ node = source := by
  constructor
  · intro atZero
    cases atZero.1
    rfl
  · intro isSource
    subst isSource
    exact at_source

theorem Within.exists_at {steps : Nat} (walk : Within arc source steps node) :
    ∃ distance ≤ steps, At arc source distance node := by
  classical
  have some : ∃ steps, Within arc source steps node := ⟨steps, walk⟩
  exact ⟨Nat.find some, Nat.find_min' some walk, Nat.find_spec some, fun _ other => Nat.find_min' some other⟩

variable {distance : Nat}

theorem At.predecessor (atDistance : At arc source (distance + 1) node) :
    ∃ previous, At arc source distance previous ∧ arc previous node := by
  obtain ⟨walk, shortest⟩ := atDistance
  cases walk with
  | @step _ previous _ onwards leads =>
    refine ⟨previous, ⟨onwards, fun steps other => ?_⟩, leads⟩
    have := shortest (steps + 1) (other.step leads)
    omega

theorem At.successor {node next : ν} (atDistance : At arc source distance node) (leads : arc node next) :
    ∃ nextDistance ≤ distance + 1, At arc source nextDistance next :=
  (atDistance.1.step leads).exists_at

theorem at_succ_iff :
    At arc source (distance + 1) node ↔
      (∃ previous, At arc source distance previous ∧ arc previous node) ∧
        ∀ nearer ≤ distance, ¬ At arc source nearer node := by
  constructor
  · intro atNext
    refine ⟨atNext.predecessor, fun nearer isNearer atNearer => ?_⟩
    have := atNext.unique atNearer
    omega
  · intro both
    obtain ⟨⟨previous, atPrevious, leads⟩, notNearer⟩ := both
    obtain ⟨found, within, atFound⟩ := atPrevious.successor leads
    by_cases isNearer : found ≤ distance
    · exact absurd atFound (notNearer found isNearer)
    · obtain rfl : found = distance + 1 := by omega
      exact atFound

end Distance
