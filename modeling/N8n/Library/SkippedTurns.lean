import Mathlib.Data.List.Basic
import Mathlib.Data.List.Nodup

/-! # Turns that a loop skips

A loop over a list may do nothing for some of the elements, and in particular
nothing for an element that it has looked at before.  Then it is the loop over
the others, each where it occurs first.
-/

namespace SkippedTurns

variable {σ β : Type*} {step : σ → β → σ} {idle : β → σ → Prop}

theorem nodup_eraseDups [DecidableEq β] (items : List β) : items.eraseDups.Nodup := by
  generalize isSize : items.length = size
  induction size using Nat.strongRecOn generalizing items with
  | _ size ih =>
    cases items with
    | nil => exact List.nodup_nil
    | cons first rest =>
      have shorter := List.length_filter_le (fun other => !other == first) rest
      rw [List.length_cons] at isSize
      rw [List.eraseDups_cons, List.nodup_cons, List.mem_eraseDups]
      exact ⟨by simp, ih _ (by omega) _ rfl⟩

/-- Elements that are idle are skipped. -/
theorem foldl_filter {test : β → Bool} (keeps : ∀ state item other, idle item state → idle item (step state other))
    (skips : ∀ state item, idle item state → step state item = state) {items : List β} {state : σ}
    (idles : ∀ item ∈ items, test item = false → idle item state) :
    items.foldl step state = (items.filter test).foldl step state := by
  induction items generalizing state with
  | nil => rfl
  | cons item rest ih =>
    cases passes : test item with
    | false =>
      rw [List.foldl_cons, skips _ _ (idles item List.mem_cons_self passes), List.filter_cons_of_neg (by simp [passes])]
      exact ih fun other member => idles other (List.mem_cons_of_mem _ member)
    | true =>
      rw [List.foldl_cons, List.filter_cons_of_pos passes, List.foldl_cons]
      exact ih fun other member fails =>
        keeps _ _ _ (idles other (List.mem_cons_of_mem _ member) fails)

/-- An element that occurs several times counts where it occurs first. -/
theorem foldl_eraseDups [DecidableEq β] (settles : ∀ state item, idle item (step state item))
    (keeps : ∀ state item other, idle item state → idle item (step state other))
    (skips : ∀ state item, idle item state → step state item = state) (items : List β) (state : σ) :
    items.foldl step state = items.eraseDups.foldl step state := by
  generalize isSize : items.length = size
  induction size using Nat.strongRecOn generalizing items state with
  | _ size ih =>
    cases items with
    | nil => rfl
    | cons item rest =>
      rw [List.foldl_cons, List.eraseDups_cons, List.foldl_cons]
      have again : ∀ other ∈ rest, (!other == item) = false → idle other (step state item) := by
        intro other _ same
        obtain rfl : other = item := by simpa using same
        exact settles state other
      rw [foldl_filter keeps skips again]
      apply ih _ _ _ _ rfl
      have shorter := List.length_filter_le (fun other => !other == item) rest
      rw [List.length_cons] at isSize
      omega

end SkippedTurns
