import Mathlib.Algebra.GroupWithZero.Nat
import Mathlib.Data.List.Basic
import Mathlib.Data.List.Forall2

/-! # Loops that may throw

A `for` loop over a list whose body may throw is `List.foldlM` in `Except`.
The rules below derive what the whole loop does from what one turn does.
-/

namespace Loop

variable {ε σ α γ : Type*}

/-- A sequence of two steps that returned returned from both. -/
theorem bind_inv {ε : Type*} {α β : Type} {first : Except ε α} {next : α → Except ε β} {final : β}
    (returns : (first >>= next) = .ok final) : ∃ value, first = .ok value ∧ next value = .ok final := by
  cases first with
  | error error => cases returns
  | ok value => exact ⟨value, rfl, returns⟩

theorem ok_eq_ok_iff {ε α : Type*} {first second : α} :
    (Except.ok first : Except ε α) = .ok second ↔ second = first := by
  rw [Except.ok.injEq, eq_comm]

variable {body : σ → α → Except ε σ}

theorem foldlM_cons_ok {state next : σ} {item : α} {rest : List α}
    (turn : body state item = .ok next) : (item :: rest).foldlM body state = rest.foldlM body next := by
  simp only [List.foldlM_cons, turn]; rfl

theorem foldlM_cons_error {state : σ} {item : α} {rest : List α}
    {error : ε} (turn : body state item = .error error) :
    (item :: rest).foldlM body state = .error error := by
  simp only [List.foldlM_cons, turn]; rfl

variable {state final : σ}

/-- A loop that returned went through a first turn that returned. -/
theorem foldlM_cons_inv {item : α} {rest : List α}
    (returns : (item :: rest).foldlM body state = .ok final) :
    ∃ next, body state item = .ok next ∧ rest.foldlM body next = .ok final := by
  cases turn : body state item with
  | error error => rw [foldlM_cons_error turn] at returns; cases returns
  | ok next => exact ⟨next, rfl, by rwa [foldlM_cons_ok turn] at returns⟩

theorem foldlM_append_ok {first second : List α} {state next : σ}
    (returns : first.foldlM body state = .ok next) :
    (first ++ second).foldlM body state = second.foldlM body next := by
  rw [List.foldlM_append, returns]; rfl

theorem foldlM_append_error {first second : List α} {state : σ} {error : ε}
    (fails : first.foldlM body state = .error error) :
    (first ++ second).foldlM body state = .error error := by
  rw [List.foldlM_append, fails]; rfl

theorem foldlM_append_inv {first second : List α}
    (returns : (first ++ second).foldlM body state = .ok final) :
    ∃ next, first.foldlM body state = .ok next ∧ second.foldlM body next = .ok final := by
  cases turns : first.foldlM body state with
  | error error => rw [foldlM_append_error turns] at returns; cases returns
  | ok next => exact ⟨next, rfl, by rwa [foldlM_append_ok turns] at returns⟩

/-- A loop that maps returned what its turns returned, in their order. -/
theorem mapM_eq_ok_iff {ε : Type*} {α β : Type} {turn : α → Except ε β} {items : List α} {results : List β} :
    items.mapM turn = .ok results ↔ List.Forall₂ (fun item result => turn item = .ok result) items results := by
  induction items generalizing results with
  | nil =>
    rw [List.mapM_nil, List.forall₂_nil_left_iff]
    constructor
    · intro returns
      exact (Except.ok.inj returns).symm
    · rintro rfl
      rfl
  | cons item rest ih =>
    rw [List.mapM_cons]
    constructor
    · intro returns
      obtain ⟨result, first, remaining⟩ := bind_inv returns
      obtain ⟨others, later, collected⟩ := bind_inv remaining
      cases collected
      exact .cons first (ih.mp later)
    · intro turns
      cases turns with
      | cons first later =>
        rw [first, ih.mpr later]
        rfl

/-- The same for turns that may say nothing. -/
theorem mapM_eq_some_iff {α β : Type} {turn : α → Option β} {items : List α} {results : List β} :
    items.mapM turn = some results ↔ List.Forall₂ (fun item result => turn item = some result) items results := by
  induction items generalizing results with
  | nil => simp [List.forall₂_nil_left_iff, eq_comm]
  | cons item rest ih =>
    rw [List.mapM_cons]
    constructor
    · intro returns
      obtain ⟨result, first, remaining⟩ := Option.bind_eq_some_iff.mp returns
      obtain ⟨others, later, collected⟩ := Option.bind_eq_some_iff.mp remaining
      cases collected
      exact .cons first (ih.mp later)
    · intro turns
      cases turns with
      | cons first later =>
        rw [first, ih.mpr later]
        rfl

theorem exists_turn_of_mem_mapM {ε : Type*} {α β : Type} {turn : α → Except ε β} {items : List α} {results : List β}
    (returns : items.mapM turn = .ok results) {result : β} (member : result ∈ results) :
    ∃ item ∈ items, turn item = .ok result := by
  rw [mapM_eq_ok_iff] at returns
  induction returns with
  | nil => cases member
  | @cons item first rest results related _ ih =>
    rcases List.mem_cons.mp member with rfl | member
    · exact ⟨item, List.mem_cons_self, related⟩
    · obtain ⟨other, inside, first⟩ := ih member
      exact ⟨other, List.mem_cons_of_mem item inside, first⟩

/-- Of two lists that are related one by one, every item of the first one has a partner. -/
theorem exists_result_of_mem {α β : Type*} {related : α → β → Prop} {items : List α} {results : List β}
    (each : List.Forall₂ related items results) {item : α} (member : item ∈ items) :
    ∃ result ∈ results, related item result := by
  induction each with
  | nil => cases member
  | @cons first result rest results first_ _ ih =>
    rcases List.mem_cons.mp member with rfl | member
    · exact ⟨result, List.mem_cons_self, first_⟩
    · obtain ⟨other, inside, later⟩ := ih member
      exact ⟨other, List.mem_cons_of_mem result inside, later⟩

theorem exists_result_of_mem_mapM {ε : Type*} {α β : Type} {turn : α → Except ε β} {items : List α}
    {results : List β} (returns : items.mapM turn = .ok results) {item : α} (member : item ∈ items) :
    ∃ result ∈ results, turn item = .ok result :=
  exists_result_of_mem (mapM_eq_ok_iff.mp returns) member

theorem exists_results {α β : Type*} {related : α → β → Prop} {items : List α}
    (each : ∀ item ∈ items, ∃ result, related item result) : ∃ results, List.Forall₂ related items results := by
  induction items with
  | nil => exact ⟨[], .nil⟩
  | cons item rest ih =>
    obtain ⟨result, first⟩ := each item List.mem_cons_self
    obtain ⟨results, later⟩ := ih fun other member => each other (List.mem_cons_of_mem item member)
    exact ⟨result :: results, .cons first later⟩

theorem mapM_returns {ε : Type*} {α β : Type} {turn : α → Except ε β} {items : List α}
    (turns : ∀ item ∈ items, ∃ result, turn item = .ok result) : ∃ results, items.mapM turn = .ok results := by
  obtain ⟨results, each⟩ := exists_results turns
  exact ⟨results, mapM_eq_ok_iff.mpr each⟩

/-- What every turn gets in two steps is got by two loops. -/
theorem mapM_through {ε : Type*} {α β γ : Type} {direct : α → Except ε β} {first : α → Except ε γ}
    {second : γ → Except ε β} {items : List α} {results : List β}
    (steps : ∀ item ∈ items, ∀ result, direct item = .ok result →
      ∃ middle, first item = .ok middle ∧ second middle = .ok result)
    (returns : items.mapM direct = .ok results) :
    ∃ middles, items.mapM first = .ok middles ∧ middles.mapM second = .ok results := by
  simp only [mapM_eq_ok_iff] at returns ⊢
  induction returns with
  | nil => exact ⟨[], .nil, .nil⟩
  | @cons item result rest results related _ ih =>
    obtain ⟨middle, before, after⟩ := steps item List.mem_cons_self result related
    obtain ⟨middles, befores, afters⟩ := ih fun other member =>
      steps other (List.mem_cons_of_mem item member)
    exact ⟨middle :: middles, .cons before befores, .cons after afters⟩

theorem mapM_transfer {ε : Type*} {α β : Type} {turn turn' : α → Except ε β} {items : List α} {results : List β}
    (same : ∀ item ∈ items, ∀ result, turn item = .ok result → turn' item = .ok result)
    (returns : items.mapM turn = .ok results) : items.mapM turn' = .ok results := by
  rw [mapM_eq_ok_iff] at returns ⊢
  induction returns with
  | nil => exact .nil
  | @cons item result rest results related _ ih =>
    exact .cons (same item List.mem_cons_self result related)
      (ih fun other member => same other (List.mem_cons_of_mem item member))

theorem exists_turn_of_mem_foldlM {items : List α}
    (returns : items.foldlM body state = .ok final) {item : α} (member : item ∈ items) :
    ∃ before after, body before item = .ok after := by
  induction items generalizing state with
  | nil => cases member
  | cons first rest ih =>
    obtain ⟨next, turn, remaining⟩ := foldlM_cons_inv returns
    cases List.mem_cons.mp member with
    | inl isFirst => exact ⟨state, next, isFirst ▸ turn⟩
    | inr later => exact ih remaining later

/-- What a loop throws, one of its turns threw. -/
theorem exists_turn_of_foldlM_error {items : List α} {state : σ} {error : ε}
    (fails : items.foldlM body state = .error error) :
    ∃ item ∈ items, ∃ before, body before item = .error error := by
  induction items generalizing state with
  | nil => cases fails
  | cons item rest ih =>
    cases turn : body state item with
    | error thrown =>
      rw [foldlM_cons_error turn] at fails
      exact ⟨item, List.mem_cons_self, state, turn.trans fails⟩
    | ok next =>
      rw [foldlM_cons_ok turn] at fails
      obtain ⟨other, member, before, throws⟩ := ih fails
      exact ⟨other, List.mem_cons_of_mem item member, before, throws⟩

/-- A loop whose turns return when their item allows it, and then compute, is such a computation. -/
theorem foldlM_eq_ok_iff {allows : α → Prop} {compute : σ → α → σ} {items : List α}
    (turn : ∀ item ∈ items, ∀ state final, body state item = .ok final ↔ allows item ∧ final = compute state item) :
    items.foldlM body state = .ok final ↔ (∀ item ∈ items, allows item) ∧ final = items.foldl compute state := by
  induction items generalizing state with
  | nil => simp [pure, Except.pure, eq_comm]
  | cons item rest ih =>
    have turnRest := fun other member => turn other (List.mem_cons_of_mem item member)
    rw [List.foldl_cons, List.forall_mem_cons]
    constructor
    · intro returns
      obtain ⟨next, first, remaining⟩ := foldlM_cons_inv returns
      obtain ⟨allowed, rfl⟩ := (turn item List.mem_cons_self state next).mp first
      obtain ⟨others, computed⟩ := (ih turnRest).mp remaining
      exact ⟨⟨allowed, others⟩, computed⟩
    · intro runs
      obtain ⟨⟨allowed, others⟩, computed⟩ := runs
      rw [foldlM_cons_ok ((turn item List.mem_cons_self state _).mpr ⟨allowed, rfl⟩)]
      exact (ih turnRest).mpr ⟨others, computed⟩

/-- Partial correctness: what every returning turn preserves, the loop preserves. -/
theorem foldlM_preserves (invariant : σ → Prop) {items : List α}
    (turn : ∀ item ∈ items, ∀ state next, invariant state → body state item = .ok next →
      invariant next) (start : invariant state) (returns : items.foldlM body state = .ok final) :
    invariant final := by
  induction items generalizing state with
  | nil => cases returns; exact start
  | cons item rest ih =>
    obtain ⟨next, first, remaining⟩ := foldlM_cons_inv returns
    exact ih (fun other member => turn other (List.mem_cons_of_mem _ member))
      (turn item List.mem_cons_self _ _ start first) remaining

/-- Partial correctness with the work done so far. -/
theorem foldlM_accumulates {ω : Type*} (invariant : List ω → σ → Prop)
    (work : α → List ω) {items : List α} {done : List ω}
    (turn : ∀ item ∈ items, ∀ done state next, invariant done state → body state item = .ok next →
      invariant (done ++ work item) next)
    (start : invariant done state) (returns : items.foldlM body state = .ok final) :
    invariant (done ++ items.flatMap work) final := by
  induction items generalizing done state with
  | nil =>
    cases returns
    simpa using start
  | cons item rest ih =>
    obtain ⟨next, first, remaining⟩ := foldlM_cons_inv returns
    have kept := turn item List.mem_cons_self done state next start first
    rw [List.flatMap_cons, ← List.append_assoc]
    exact ih (fun other member => turn other (List.mem_cons_of_mem _ member)) kept remaining

/-- Total correctness: a loop whose turns return and keep the invariant returns and keeps it. -/
theorem foldlM_returns (invariant : σ → Prop) {items : List α}
    (turn : ∀ item ∈ items, ∀ state, invariant state → ∃ next, body state item = .ok next ∧ invariant next)
    {state : σ} (start : invariant state) :
    ∃ final, items.foldlM body state = .ok final ∧ invariant final := by
  induction items generalizing state with
  | nil => exact ⟨state, rfl, start⟩
  | cons item rest ih =>
    obtain ⟨next, first, kept⟩ := turn item List.mem_cons_self state start
    rw [foldlM_cons_ok first]
    exact ih (fun other member => turn other (List.mem_cons_of_mem _ member)) kept

/-- Total correctness with an invariant about the items already done. -/
theorem foldlM_returns_upTo (invariant : List α → σ → Prop) {items : List α}
    (turn : ∀ before item after, items = before ++ item :: after → ∀ state, invariant before state →
      ∃ next, body state item = .ok next ∧ invariant (before ++ [item]) next)
    {state : σ} (start : invariant [] state) :
    ∃ final, items.foldlM body state = .ok final ∧ invariant items final := by
  have fromMiddle : ∀ after before, items = before ++ after → ∀ state, invariant before state →
      ∃ final, after.foldlM body state = .ok final ∧ invariant items final := by
    intro after
    induction after with
    | nil =>
      intro before split state kept
      rw [List.append_nil] at split
      exact ⟨state, rfl, split ▸ kept⟩
    | cons item after ih =>
      intro before split state kept
      obtain ⟨next, first, keptNext⟩ := turn before item after split state kept
      rw [foldlM_cons_ok first]
      exact ih (before ++ [item]) (by simp [split]) next keptNext
  exact fromMiddle items [] rfl state start

/-- A loop that returned, each of whose turns adds a set of elements, has added their union. -/
theorem foldlM_collected (invariant : σ → Prop) (holds : σ → γ → Prop)
    (adds : α → γ → Prop) {items : List α}
    (turn : ∀ item ∈ items, ∀ state next, invariant state → body state item = .ok next →
      invariant next ∧ ∀ element, holds next element ↔
        holds state element ∨ adds item element) (start : invariant state) (returns : items.foldlM body state = .ok final) :
    invariant final ∧
      ∀ element, holds final element ↔ holds state element ∨ ∃ item ∈ items, adds item element := by
  induction items generalizing state with
  | nil => cases returns; exact ⟨start, by simp⟩
  | cons item rest ih =>
    obtain ⟨next, first, remaining⟩ := foldlM_cons_inv returns
    obtain ⟨kept, added⟩ := turn item List.mem_cons_self state next start first
    obtain ⟨keptFinal, addedFinal⟩ := ih
      (fun other member => turn other (List.mem_cons_of_mem _ member)) kept remaining
    refine ⟨keptFinal, fun element => ?_⟩
    rw [addedFinal, added, List.exists_mem_cons_iff, or_assoc]

/-- A loop whose turns all return and each add a set of elements adds the union of these sets. -/
theorem foldlM_collects (invariant : σ → Prop) (holds : σ → γ → Prop)
    (adds : α → γ → Prop) {items : List α}
    (turn : ∀ item ∈ items, ∀ state, invariant state → ∃ next, body state item = .ok next ∧
      invariant next ∧ ∀ element, holds next element ↔ holds state element ∨ adds item element)
    {state : σ} (start : invariant state) :
    ∃ final, items.foldlM body state = .ok final ∧ invariant final ∧
      ∀ element, holds final element ↔ holds state element ∨ ∃ item ∈ items, adds item element := by
  obtain ⟨final, returns, _⟩ := foldlM_returns invariant (fun item member state kept =>
    let ⟨next, first, keptNext, _⟩ := turn item member state kept
    ⟨next, first, keptNext⟩) start
  refine ⟨final, returns, foldlM_collected invariant holds adds
    (fun item member state next kept first => ?_) start returns⟩
  obtain ⟨next', first', keptNext, added⟩ := turn item member state kept
  rw [first] at first'
  cases first'
  exact ⟨keptNext, added⟩

/-! ## Loops that cannot fail -/

theorem foldl_preserves {body : σ → α → σ} (property : σ → Prop) {items : List α}
    (keeps : ∀ item ∈ items, ∀ state, property state → property (body state item)) {state : σ}
    (start : property state) : property (items.foldl body state) := by
  induction items generalizing state with
  | nil => exact start
  | cons first rest ih =>
    exact ih (fun item member => keeps item (List.mem_cons_of_mem _ member))
      (keeps first List.mem_cons_self state start)

/-- What a turn never undoes, and what it brings about for some items, holds in the end when it held at first or one
of the items brings it about. -/
theorem foldl_iff_exists {body : σ → α → σ} (property : σ → Prop) (brings : α → Prop)
    (turn : ∀ state item, property (body state item) ↔ property state ∨ brings item) (items : List α) (state : σ) :
    property (items.foldl body state) ↔ property state ∨ ∃ item ∈ items, brings item := by
  induction items generalizing state with
  | nil => simp
  | cons first rest ih =>
    simp [ih, turn, or_assoc]

/-- What every turn keeps and one turn brings about holds in the end. -/
theorem foldl_establishes {body : σ → α → σ} (property : σ → Prop) {items : List α}
    (keeps : ∀ item ∈ items, ∀ state, property state → property (body state item))
    (brings : ∃ item ∈ items, ∀ state, property (body state item)) (state : σ) :
    property (items.foldl body state) := by
  induction items generalizing state with
  | nil =>
    obtain ⟨item, member, _⟩ := brings
    cases member
  | cons first rest ih =>
    have keepsRest := fun item member => keeps item (List.mem_cons_of_mem first member)
    obtain ⟨item, member, establishes⟩ := brings
    cases List.mem_cons.mp member with
    | inl isFirst =>
      exact foldl_preserves property keepsRest (isFirst ▸ establishes state)
    | inr inRest => exact ih keepsRest ⟨item, inRest, establishes⟩ _

/-! ## Loops over a collection that grows -/

/-- A `for` loop over the values of a map also visits the values its body appends. -/
def forGrowing (exhausted : ε) (items : σ → List α) (body : σ → α → Except ε σ) :
    Nat → Nat → σ → Except ε σ
  | 0, _, _ => .error exhausted
  | fuel + 1, index, state =>
    match (items state)[index]? with
    | none => .ok state
    | some item =>
      match body state item with
      | .error error => .error error
      | .ok next => forGrowing exhausted items body fuel (index + 1) next

/-- As much fuel as there can be items is enough, and every item is visited. -/
theorem forGrowing_collects (exhausted : ε) {items : σ → List α}
    (invariant : σ → Prop) (holds : σ → γ → Prop) (adds : α → γ → Prop) {bound : Nat}
    (bounded : ∀ state, invariant state → (items state).length ≤ bound)
    (turn : ∀ state, invariant state → ∀ item ∈ items state, ∃ next, body state item = .ok next ∧
      invariant next ∧ items state <+: items next ∧
        ∀ element, holds next element ↔ holds state element ∨ adds item element)
    {fuel index : Nat} {state : σ} (start : invariant state) (within : index ≤ (items state).length)
    (enough : bound < fuel + index) :
    ∃ final, forGrowing exhausted items body fuel index state = .ok final ∧ invariant final ∧
      items state <+: items final ∧ ∀ element, holds final element ↔
        holds state element ∨ ∃ item ∈ (items final).drop index, adds item element := by
  induction fuel generalizing index state with
  | zero =>
    have := bounded state start
    omega
  | succ fuel ih =>
    rw [forGrowing]
    cases found : (items state)[index]? with
    | none =>
      have atEnd : (items state).drop index = [] :=
        List.drop_eq_nil_of_le (List.getElem?_eq_none_iff.mp found)
      exact ⟨state, rfl, start, List.prefix_refl _, by simp [atEnd]⟩
    | some item =>
      obtain ⟨next, returns, kept, grows, added⟩ := turn state start item (List.mem_of_getElem? found)
      obtain ⟨inside, _⟩ := List.getElem?_eq_some_iff.mp found
      have nextWithin : index + 1 ≤ (items next).length := Nat.le_trans inside grows.length_le
      obtain ⟨final, finalReturns, finalKept, finalGrows, finalAdded⟩ :=
        ih kept nextWithin (by omega)
      have grown := grows.trans finalGrows
      have stillThere : (items final)[index]? = some item := by
        obtain ⟨appended, equal⟩ := grown
        rw [← equal, List.getElem?_append_left inside, found]
      have split : (items final).drop index = item :: (items final).drop (index + 1) := by
        rw [List.drop_eq_getElem?_toList_append, stillThere]; rfl
      refine ⟨final, by simp only [returns]; exact finalReturns, finalKept, grown, fun element => ?_⟩
      rw [finalAdded, added, split, List.exists_mem_cons_iff, or_assoc]

end Loop
