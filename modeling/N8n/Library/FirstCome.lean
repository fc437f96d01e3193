import Mathlib.Data.List.Basic
import Mathlib.Data.List.Nodup

/-! # First come, first served, kind by kind

Requests are looked at one after another, and each takes the first offer of its
kind that is left.  Kind by kind this is the zip of the offers and the requests,
and the offers that are left keep their order.
-/

namespace FirstCome

variable {α β τ : Type*} [DecidableEq τ] (offered : α → τ) (wanted : β → τ)

/-- The pairs in the order of the requests, and the offers that are left. -/
def serve : List α → List β → List (α × β) × List α
  | offers, [] => ([], offers)
  | offers, request :: rest =>
    match offers.find? fun offer => offered offer = wanted request with
    | none => serve offers rest
    | some offer =>
      let served := serve (offers.eraseP fun offer => offered offer = wanted request) rest
      ((offer, request) :: served.1, served.2)

variable {offered wanted} {offers : List α} {requests rest : List β} {request : β} {offer : α} {kind : τ}

/-- The first offer of a kind stands behind offers of other kinds. -/
theorem find?_split (found : offers.find? (fun offer => offered offer = kind) = some offer) :
    ∃ front back, offers = front ++ offer :: back ∧
      (offers.eraseP fun offer => offered offer = kind) = front ++ back ∧ offered offer = kind ∧
      ∀ other ∈ front, offered other ≠ kind := by
  obtain ⟨isKind, front, back, rfl, others⟩ := List.find?_eq_some_iff_append.mp found
  have before : ∀ other ∈ front, offered other ≠ kind := by simpa using others
  refine ⟨front, back, rfl, ?_, of_decide_eq_true isKind, before⟩
  rw [List.eraseP_append_right _ (by simpa using before),
    List.eraseP_cons_of_pos (p := fun offer => decide (offered offer = kind)) isKind]

theorem serve_none (none : offers.find? (fun offer => offered offer = wanted request) = none) :
    serve offered wanted offers (request :: rest) = serve offered wanted offers rest := by
  rw [serve, none]

theorem serve_some {front back : List α}
    (erased : (offers.eraseP fun offer => offered offer = wanted request) = front ++ back)
    (found : offers.find? (fun offer => offered offer = wanted request) = some offer) :
    serve offered wanted offers (request :: rest) =
      ((offer, request) :: (serve offered wanted (front ++ back) rest).1,
        (serve offered wanted (front ++ back) rest).2) := by
  rw [serve, found, erased]

variable (offered wanted) in
/-- Kind by kind, the offers meet the requests in their order, and as many offers are gone as there are requests. -/
theorem serve_kind (offers : List α) (requests : List β) (kind : τ) :
    ((serve offered wanted offers requests).1.filter fun pair => offered pair.1 = kind) =
        (offers.filter fun offer => offered offer = kind).zip (requests.filter fun request => wanted request = kind) ∧
      ((serve offered wanted offers requests).2.filter fun offer => offered offer = kind) =
        (offers.filter fun offer => offered offer = kind).drop
          (requests.filter fun request => wanted request = kind).length := by
  induction requests generalizing offers with
  | nil => simp [serve]
  | cons request rest ih =>
    cases found : offers.find? fun offer => offered offer = wanted request with
    | none =>
      obtain ⟨pairs, left⟩ := ih offers
      rw [serve_none found, pairs, left]
      by_cases same : wanted request = kind
      · subst same
        have empty : (offers.filter fun offer => offered offer = wanted request) = [] := by
          simpa [List.filter_eq_nil_iff] using List.find?_eq_none.mp found
        simp [empty]
      · simp [same]
    | some offer =>
      obtain ⟨front, back, isSplit, erased, isKind, before⟩ := find?_split found
      obtain ⟨pairs, left⟩ := ih (front ++ back)
      rw [serve_some erased found]
      by_cases same : wanted request = kind
      · subst same
        have noFront : (front.filter fun offer => offered offer = wanted request) = [] := by
          simpa [List.filter_eq_nil_iff] using before
        simp [isSplit, isKind, noFront, pairs, left]
      · have other : offered offer ≠ kind := fun equal => same (isKind.symm.trans equal)
        simp [isSplit, other, same, pairs, left]

variable (offered wanted) in
theorem requests_sublist (offers : List α) (requests : List β) :
    ((serve offered wanted offers requests).1.map Prod.snd).Sublist requests := by
  induction requests generalizing offers with
  | nil => exact List.Sublist.slnil
  | cons request rest ih =>
    cases found : offers.find? fun offer => offered offer = wanted request with
    | none =>
      rw [serve_none found]
      exact (ih offers).cons request
    | some offer =>
      obtain ⟨front, back, isSplit, erased, _⟩ := find?_split found
      rw [serve_some erased found]
      exact (ih _).cons_cons request

variable (offered wanted) in
/-- Every offer is used or left, and those that are left keep their order. -/
theorem nodup_and_left_eq (nodup : offers.Nodup) (requests : List β) [DecidableEq α] :
    ((serve offered wanted offers requests).1.map Prod.fst).Nodup ∧
      (∀ offer ∈ (serve offered wanted offers requests).1.map Prod.fst, offer ∈ offers) ∧
      (serve offered wanted offers requests).2 =
        offers.filter fun offer => offer ∉ (serve offered wanted offers requests).1.map Prod.fst := by
  induction requests generalizing offers with
  | nil => simp [serve]
  | cons request rest ih =>
    cases found : offers.find? fun offer => offered offer = wanted request with
    | none =>
      rw [serve_none found]
      exact ih nodup
    | some offer =>
      obtain ⟨front, back, isSplit, erased, _⟩ := find?_split found
      rw [isSplit] at nodup
      have fresh : offer ∉ front ++ back := (List.nodup_middle.mp nodup |> List.nodup_cons.mp).1
      obtain ⟨usedOnce, inside, left⟩ := ih (List.nodup_cons.mp (List.nodup_middle.mp nodup)).2
      rw [serve_some erased found]
      refine ⟨?_, ?_, ?_⟩
      · rw [List.map_cons, List.nodup_cons]
        exact ⟨fun again => fresh (inside offer again), usedOnce⟩
      · intro other member
        rw [isSplit]
        obtain rfl | later := List.mem_cons.mp member
        · simp
        · have between := inside other later
          simp only [List.mem_append, List.mem_cons] at between ⊢
          exact between.imp id .inr
      · have others : ∀ other ∈ front ++ back, other ≠ offer := fun other member equal => fresh (equal ▸ member)
        have frontSame := List.filter_congr (l := front) fun other member => by
          have different := others other (List.mem_append_left _ member)
          exact (by simp [different] : decide (other ∉ (serve offered wanted (front ++ back) rest).1.map Prod.fst) =
            decide (other ∉ offer :: (serve offered wanted (front ++ back) rest).1.map Prod.fst))
        have backSame := List.filter_congr (l := back) fun other member => by
          have different := others other (List.mem_append_right _ member)
          exact (by simp [different] : decide (other ∉ (serve offered wanted (front ++ back) rest).1.map Prod.fst) =
            decide (other ∉ offer :: (serve offered wanted (front ++ back) rest).1.map Prod.fst))
        rw [left, List.filter_append, isSplit, List.map_cons, List.filter_append, List.filter_cons_of_neg (by simp),
          frontSame, backSame]

theorem kind_eq {pair : α × β} (member : pair ∈ (serve offered wanted offers requests).1) :
    wanted pair.2 = offered pair.1 := by
  have ofKind : pair ∈ (serve offered wanted offers requests).1.filter fun other => offered other.1 = offered pair.1 :=
    List.mem_filter.mpr ⟨member, decide_eq_true rfl⟩
  rw [(serve_kind offered wanted offers requests (offered pair.1)).1] at ofKind
  exact of_decide_eq_true (List.mem_filter.mp (List.of_mem_zip ofKind).2).2

end FirstCome
