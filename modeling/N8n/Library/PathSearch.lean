import Mathlib.Logic.Relation

/-! # Forward search over paths

A search from a root that ends a branch at the nodes that stop it and at the
nodes it has passed on this branch.  It carries the passed nodes of one branch
only, so it follows paths and may come by a node many times.
-/

namespace PathSearch

open Relation

variable {ν : Type*} {stops : ν → Prop} {arc : ν → ν → Prop}

/-- A walk goes on from nodes that do not stop it. -/
def Step (stops : ν → Prop) (arc : ν → ν → Prop) (u v : ν) : Prop := ¬ stops u ∧ arc u v

/-- The call at `u` with the nodes `seen` comes to call at `v` with the nodes `seen'`. -/
inductive Calls (stops : ν → Prop) (arc : ν → ν → Prop) : ν → List ν → ν → List ν → Prop where
  | here {u : ν} {seen : List ν} : Calls stops arc u seen u seen
  | child {u next v : ν} {seen seen' : List ν} (goesOn : ¬ stops u) (unseen : u ∉ seen) (leads : arc u next)
      (onwards : Calls stops arc next (seen ++ [u]) v seen') : Calls stops arc u seen v seen'

variable {u v : ν}

theorem Calls.reached {seen seen' : List ν} (calls : Calls stops arc u seen v seen') :
    ReflTransGen (Step stops arc) u v := by
  induction calls with
  | here => exact .refl
  | child goesOn _ leads _ ih => exact .head ⟨goesOn, leads⟩ ih

theorem Calls.snoc {u v next : ν} {seen seen' : List ν} (calls : Calls stops arc u seen v seen')
    (goesOn : ¬ stops v) (unseen : v ∉ seen') (leads : arc v next) :
    Calls stops arc u seen next (seen' ++ [v]) := by
  induction calls with
  | here => exact .child goesOn unseen leads .here
  | child firstGoesOn firstUnseen firstLeads _ ih =>
    exact .child firstGoesOn firstUnseen firstLeads (ih goesOn unseen leads)

/-- A node that a branch passes twice was called before it was passed. -/
theorem Calls.exists_unseen {seen seen' : List ν} (calls : Calls stops arc u seen v seen') (unseen : v ∉ seen) :
    ∃ earlier, Calls stops arc u seen v earlier ∧ v ∉ earlier := by
  induction calls with
  | here => exact ⟨_, .here, unseen⟩
  | @child u next v seen seen' goesOn notSeen leads _ ih =>
    by_cases isRoot : v = u
    · subst isRoot
      exact ⟨seen, .here, unseen⟩
    · obtain ⟨earlier, onwards, fresh⟩ := ih (by simp [unseen, isRoot])
      exact ⟨earlier, .child goesOn notSeen leads onwards, fresh⟩

theorem exists_calls (reached : ReflTransGen (Step stops arc) u v) :
    ∃ seen, Calls stops arc u [] v seen ∧ v ∉ seen := by
  induction reached with
  | refl => exact ⟨[], .here, List.not_mem_nil⟩
  | tail _ step ih =>
    obtain ⟨seen, calls, unseen⟩ := ih
    exact (calls.snoc step.1 unseen step.2).exists_unseen List.not_mem_nil

/-- Following the simple paths is enough: the search comes by the nodes that a walk leads to. -/
theorem exists_calls_iff :
    (∃ seen, Calls stops arc u [] v seen) ↔ ReflTransGen (Step stops arc) u v := by
  constructor
  · intro comesBy
    obtain ⟨_, calls⟩ := comesBy
    exact calls.reached
  · intro reached
    obtain ⟨seen, calls, _⟩ := exists_calls reached
    exact ⟨seen, calls⟩

end PathSearch
