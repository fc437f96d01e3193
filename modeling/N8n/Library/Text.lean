import Mathlib.Data.List.Infix

/-! # Searching and replacing in texts

A text is a list of characters.  `exec` finds the leftmost place where a matcher
succeeds, as a regular expression is executed; `replaceFirst` is the replacement
of the first occurrence of a fixed pattern.
-/

namespace N8n.Text

variable {α β : Type*}

/-- The index of the leftmost match and what the matcher returned there. -/
def exec (matchHere : List α → Option β) : List α → Option (Nat × β)
  | [] => (matchHere []).map fun found => (0, found)
  | first :: rest =>
    match matchHere (first :: rest) with
    | some found => some (0, found)
    | none => (exec matchHere rest).map fun (index, found) => (index + 1, found)

variable {matchHere : List α → Option β} {text : List α} {found : β}

theorem exec_of_match (here : matchHere text = some found) : exec matchHere text = some (0, found) := by
  cases text with
  | nil => simp [exec, here]
  | cons first rest => simp [exec, here]

theorem exec_cons_of_none {first : α} {rest : List α} (here : matchHere (first :: rest) = none) :
    exec matchHere (first :: rest) = (exec matchHere rest).map fun (index, found) => (index + 1, found) := by
  simp [exec, here]

theorem exec_eq_some {index : Nat} (result : exec matchHere text = some (index, found)) :
    matchHere (text.drop index) = some found ∧ ∀ earlier < index, matchHere (text.drop earlier) = none := by
  induction text generalizing index with
  | nil =>
    simp only [exec, Option.map_eq_some_iff, Prod.mk.injEq] at result
    obtain ⟨_, here, rfl, rfl⟩ := result
    exact ⟨here, fun _ impossible => absurd impossible (Nat.not_lt_zero _)⟩
  | cons first rest ih =>
    cases here : matchHere (first :: rest) with
    | some found' =>
      rw [exec_of_match here] at result
      cases result
      exact ⟨here, fun _ impossible => absurd impossible (Nat.not_lt_zero _)⟩
    | none =>
      rw [exec_cons_of_none here] at result
      simp only [Option.map_eq_some_iff, Prod.mk.injEq, Prod.exists] at result
      obtain ⟨before, found', inRest, rfl, rfl⟩ := result
      obtain ⟨matches_, noneBefore⟩ := ih inRest
      refine ⟨matches_, fun earlier smaller => ?_⟩
      cases earlier with
      | zero => exact here
      | succ earlier => exact noneBefore earlier (by omega)

/-- The number of places in `before` where the matcher succeeds, with `after` standing behind. -/
def matchesWithin (matchHere : List α → Option β) : List α → List α → Nat
  | [], _ => 0
  | first :: rest, after =>
    (if (matchHere (first :: rest ++ after)).isSome then 1 else 0) + matchesWithin matchHere rest after

theorem matchesWithin_append (matchHere : List α → Option β) (before middle after : List α) :
    matchesWithin matchHere (before ++ middle) after =
      matchesWithin matchHere before (middle ++ after) + matchesWithin matchHere middle after := by
  induction before with
  | nil => simp [matchesWithin]
  | cons first rest ih =>
    simp only [List.cons_append, matchesWithin, ih, List.append_assoc]
    omega

theorem exec_append {before after : List α} (noMatch : matchesWithin matchHere before after = 0) :
    exec matchHere (before ++ after) =
      (exec matchHere after).map fun (index, found) => (before.length + index, found) := by
  induction before with
  | nil => simp
  | cons first rest ih =>
    rw [matchesWithin] at noMatch
    have here : matchHere (first :: (rest ++ after)) = none := by
      by_contra succeeds
      have isSome := Option.isSome_iff_ne_none.mpr succeeds
      rw [List.cons_append, if_pos isSome] at noMatch
      omega
    rw [List.cons_append, exec_cons_of_none here, ih (by omega), Option.map_map]
    congr 1
    funext ⟨index, found⟩
    simp only [Function.comp_apply, List.length_cons, Prod.mk.injEq, and_true]
    omega

theorem matchesWithin_of_exec {index : Nat} (result : exec matchHere text = some (index, found)) :
    matchesWithin matchHere (text.take index) (text.drop index) = 0 := by
  induction text generalizing index with
  | nil => simp [matchesWithin]
  | cons first rest ih =>
    cases here : matchHere (first :: rest) with
    | some found' =>
      rw [exec_of_match here] at result
      cases result
      rfl
    | none =>
      rw [exec_cons_of_none here] at result
      simp only [Option.map_eq_some_iff, Prod.mk.injEq, Prod.exists] at result
      obtain ⟨before, _, inRest, rfl, rfl⟩ := result
      rw [List.take_succ_cons, List.drop_succ_cons, matchesWithin, List.cons_append,
        List.take_append_drop, here, ih inRest]
      rfl

theorem matchesWithin_of_exec_none (result : exec matchHere text = none) : matchesWithin matchHere text [] = 0 := by
  induction text with
  | nil => rfl
  | cons first rest ih =>
    cases here : matchHere (first :: rest) with
    | some found => rw [exec_of_match here] at result; cases result
    | none =>
      rw [exec_cons_of_none here, Option.map_eq_none_iff] at result
      rw [matchesWithin, List.append_nil, here, ih result]
      rfl

variable [DecidableEq α]

/-- Replaces the first occurrence of the pattern, if there is one. -/
def replaceFirst (pattern replacement : List α) : List α → List α
  | [] => if pattern = [] then replacement else []
  | first :: rest =>
    if pattern <+: first :: rest then replacement ++ (first :: rest).drop pattern.length
    else first :: replaceFirst pattern replacement rest

theorem replaceFirst_of_start {pattern replacement after : List α} :
    replaceFirst pattern replacement (pattern ++ after) = replacement ++ after := by
  cases isText : pattern ++ after with
  | nil =>
    obtain ⟨rfl, rfl⟩ := List.append_eq_nil_iff.mp isText
    simp [replaceFirst]
  | cons first rest =>
    have occurs : pattern <+: first :: rest := isText ▸ List.prefix_append pattern after
    rw [replaceFirst, if_pos occurs, ← isText, List.drop_left]

theorem replaceFirst_of_not_infix {pattern replacement text : List α} (absent : ¬ pattern <:+: text) :
    replaceFirst pattern replacement text = text := by
  induction text with
  | nil =>
    have notEmpty : pattern ≠ [] := fun isEmpty => absent (isEmpty ▸ List.nil_infix)
    rw [replaceFirst, if_neg notEmpty]
  | cons first rest ih =>
    have notHere : ¬ pattern <+: first :: rest := fun here => absent here.isInfix
    rw [replaceFirst, if_neg notHere,
      ih fun inRest => absent (inRest.trans (List.suffix_cons first rest).isInfix)]

theorem replaceFirst_append {pattern replacement before after : List α}
    (notEarlier : ∀ start rest, before = start ++ rest → rest ≠ [] → ¬ pattern <+: rest ++ (pattern ++ after)) :
    replaceFirst pattern replacement (before ++ (pattern ++ after)) = before ++ (replacement ++ after) := by
  induction before with
  | nil => exact replaceFirst_of_start
  | cons first rest ih =>
    have notHere := notEarlier [] (first :: rest) rfl (List.cons_ne_nil _ _)
    rw [List.cons_append] at notHere
    rw [List.cons_append, replaceFirst, if_neg notHere, List.cons_append, ih]
    intro start later isRest notEmpty
    exact notEarlier (first :: start) later (by rw [isRest, List.cons_append]) notEmpty

end N8n.Text
