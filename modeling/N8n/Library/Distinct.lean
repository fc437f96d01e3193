import Mathlib.Data.List.Basic

/-! # Lists without two elements of one class

A test says which elements belong to one class.  A list is told apart by the
classes that occur in it, and a duplicate-free version of a list has the same
classes with one element each.
-/

namespace Distinct

variable {α : Type*} {same : α → α → Bool} {items kept : List α} {item : α}

def Occurs (same : α → α → Bool) (item : α) (items : List α) : Prop := ∃ other ∈ items, same item other

/-- No two elements of the list are of one class. -/
def NoTwo (same : α → α → Bool) (items : List α) : Prop := items.Pairwise fun first second => ¬ same first second

/-- The test is an equivalence relation. -/
def IsEquivalence (same : α → α → Bool) : Prop := Equivalence fun first second => same first second = true

/-- A version of the list in its order in which every class that occurs does so once. -/
structure VersionOf (same : α → α → Bool) (items kept : List α) : Prop where
  sublist : kept.Sublist items
  noTwo : NoTwo same kept
  complete : ∀ item ∈ items, Occurs same item kept

theorem occurs_append {second : List α} :
    Occurs same item (items ++ second) ↔ Occurs same item items ∨ Occurs same item second := by
  simp only [Occurs, List.mem_append, or_and_right, exists_or]

theorem Occurs.of_same {other : α} (equivalence : IsEquivalence same) (alike : same item other)
    (occurs : Occurs same other items) : Occurs same item items := by
  obtain ⟨third, member, alike'⟩ := occurs
  exact ⟨third, member, equivalence.trans alike alike'⟩

theorem occurs_of_mem (equivalence : IsEquivalence same) (member : item ∈ items) : Occurs same item items :=
  ⟨item, member, equivalence.refl item⟩

theorem VersionOf.occurs_iff (equivalence : IsEquivalence same) (version : VersionOf same items kept) :
    Occurs same item kept ↔ Occurs same item items := by
  constructor
  · intro ⟨other, member, alike⟩
    exact ⟨other, version.sublist.subset member, alike⟩
  · intro ⟨other, member, alike⟩
    exact (version.complete other member).of_same equivalence alike

theorem occurs_filter {test : α → Bool}
    (classes : ∀ first second, same first second = true → test first = test second) :
    Occurs same item (items.filter test) ↔ test item = true ∧ Occurs same item items := by
  simp only [Occurs, List.mem_filter]
  constructor
  · intro ⟨other, ⟨member, passes⟩, alike⟩
    exact ⟨(classes _ _ alike).trans passes, other, member, alike⟩
  · intro ⟨passes, other, member, alike⟩
    exact ⟨other, ⟨member, (classes _ _ alike).symm.trans passes⟩, alike⟩

/-! ## Keeping the first of each class -/

def keepFirst (same : α → α → Bool) (kept : List α) (item : α) : List α :=
  if kept.any (same · item) then kept else kept ++ [item]

theorem occurs_foldl_keepFirst (equivalence : IsEquivalence same) {items kept : List α} {item : α} :
    Occurs same item (items.foldl (keepFirst same) kept) ↔ Occurs same item kept ∨ Occurs same item items := by
  induction items generalizing kept with
  | nil => simp [Occurs]
  | cons first rest ih =>
    have parts : Occurs same item (first :: rest) ↔ Occurs same item [first] ∨ Occurs same item rest := by
      rw [← occurs_append, List.singleton_append]
    rw [List.foldl_cons, ih, keepFirst, parts, ← or_assoc]
    apply or_congr_left
    split
    next found =>
      obtain ⟨other, member, alike⟩ := List.any_eq_true.mp found
      have seen : Occurs same first kept := ⟨other, member, equivalence.symm alike⟩
      constructor
      · exact .inl
      · rintro (before | ⟨first', single, alike'⟩)
        · exact before
        · obtain rfl := List.mem_singleton.mp single
          exact seen.of_same equivalence alike'
    next => exact occurs_append

def firstOfEach (items : List α) (same : α → α → Bool) : List α := items.foldl (keepFirst same) []

/-- The elements that are kept go on to be a version of what was looked at. -/
theorem VersionOf.keepFirst (equivalence : IsEquivalence same) (version : VersionOf same items kept) (item : α) :
    VersionOf same (items ++ [item]) (keepFirst same kept item) := by
  rw [Distinct.keepFirst]
  split
  next found =>
    obtain ⟨other, member, alike⟩ := List.any_eq_true.mp found
    refine ⟨version.sublist.trans (List.sublist_append_left _ _), version.noTwo, ?_⟩
    intro item' member'
    obtain before | now := List.mem_append.mp member'
    · exact version.complete item' before
    · obtain rfl := List.mem_singleton.mp now
      exact ⟨other, member, equivalence.symm alike⟩
  next absent =>
    have fresh : ∀ other ∈ kept, ¬ same other item := fun other member alike =>
      absent (List.any_eq_true.mpr ⟨other, member, alike⟩)
    refine ⟨version.sublist.append_right [item], ?_, ?_⟩
    · apply List.pairwise_append.mpr
      refine ⟨version.noTwo, List.pairwise_singleton _ _, ?_⟩
      intro other member item' single
      obtain rfl := List.mem_singleton.mp single
      exact fresh other member
    · intro item' member'
      apply occurs_append.mpr
      obtain before | now := List.mem_append.mp member'
      · exact .inl (version.complete item' before)
      · exact .inr (occurs_of_mem equivalence now)

theorem versionOf_firstOfEach (equivalence : IsEquivalence same) (items : List α) :
    VersionOf same items (firstOfEach items same) := by
  have each : ∀ (seen rest kept : List α), VersionOf same seen kept →
      VersionOf same (seen ++ rest) (rest.foldl (Distinct.keepFirst same) kept) := by
    intro seen rest
    induction rest generalizing seen with
    | nil => intro kept version; rwa [List.append_nil]
    | cons item rest ih =>
      intro kept version
      rw [List.append_cons]
      exact ih _ _ (version.keepFirst equivalence item)
  exact each [] items [] ⟨.slnil, .nil, by simp⟩

end Distinct
