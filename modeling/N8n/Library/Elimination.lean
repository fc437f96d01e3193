import Mathlib.Data.List.Induction

/-! # Routes through eliminated nodes

A graph whose edges leave a node with one label and enter the next with another.
A route goes from one node to another over inner nodes from a given set; it has
the leaving label of its first edge and the entering label of its last one.
Allowing one more inner node is the same as joining every route into it to every
route out of it.
-/

namespace Elimination

variable {ν α β : Type*}

inductive Route (edge : ν → α → β → ν → Prop) (inner : ν → Prop) : ν → α → β → ν → Prop where
  | direct {u v : ν} {leaving : α} {entering : β} (step : edge u leaving entering v) :
      Route edge inner u leaving entering v
  | through {u w v : ν} {leaving leaving' : α} {entering entering' : β}
      (step : edge u leaving entering w) (isInner : inner w)
      (rest : Route edge inner w leaving' entering' v) : Route edge inner u leaving entering' v

variable {edge : ν → α → β → ν → Prop} {inner : ν → Prop}

variable {u v : ν} {leaving : α} {entering : β}

theorem Route.mono_of_edge {inner' : ν → Prop}
    (weaker : ∀ u leaving entering v, edge u leaving entering v → inner v → inner' v)
    (route : Route edge inner u leaving entering v) :
    Route edge inner' u leaving entering v := by
  induction route with
  | direct step => exact .direct step
  | through step isInner _ ih =>
    exact .through step (weaker _ _ _ _ step isInner) ih

theorem Route.mono {inner' : ν → Prop} (weaker : ∀ node, inner node → inner' node)
    (route : Route edge inner u leaving entering v) :
    Route edge inner' u leaving entering v :=
  route.mono_of_edge fun _ _ _ node _ => weaker node

theorem Route.exists_first (route : Route edge inner u leaving entering v) :
    ∃ entering' w, edge u leaving entering' w := by
  cases route with
  | direct step => exact ⟨_, _, step⟩
  | through step _ _ => exact ⟨_, _, step⟩

theorem Route.exists_last (route : Route edge inner u leaving entering v) :
    ∃ leaving' w, edge w leaving' entering v := by
  induction route with
  | direct step => exact ⟨_, _, step⟩
  | through _ _ _ ih => exact ih

theorem Route.trans {u w v : ν} {leaving leaving' : α} {entering entering' : β}
    (first : Route edge inner u leaving entering w) (isInner : inner w)
    (second : Route edge inner w leaving' entering' v) : Route edge inner u leaving entering' v := by
  induction first with
  | direct step => exact .through step isInner second
  | through step stepInner _ ih =>
    exact .through step stepInner (ih isInner second)

theorem Route.insert_iff {added u v : ν} :
    Route edge (fun node => inner node ∨ node = added) u leaving entering v ↔
      Route edge inner u leaving entering v ∨
        (∃ entering', Route edge inner u leaving entering' added) ∧
          ∃ leaving', Route edge inner added leaving' entering v := by
  constructor
  · intro route
    induction route with
    | direct step => exact .inl (.direct step)
    | @through u w v leaving leaving' entering entering' step isInner _ ih =>
      rcases isInner with old | isAdded
      · rcases ih with avoids | ⟨⟨entering'', into⟩, out⟩
        · exact .inl (.through step old avoids)
        · exact .inr ⟨⟨entering'', .through step old into⟩, out⟩
      · subst isAdded
        refine .inr ⟨⟨entering, .direct step⟩, ?_⟩
        rcases ih with avoids | ⟨_, out⟩
        · exact ⟨leaving', avoids⟩
        · exact out
  · rintro (avoids | ⟨⟨entering', into⟩, ⟨leaving', out⟩⟩)
    · exact avoids.mono fun _ => .inl
    · exact (into.mono fun _ => .inl).trans (.inr rfl) (out.mono fun _ => .inl)

end Elimination
