import Mathlib.Data.List.Induction
import N8n.Library.OrderedMap

/-! # Answers that are remembered

A run answers one query after the other and threads a state, as a loop does that
fills a cache.  Its answers are those of a function if and only if each is, under
the state that the queries before it have left.  A cache with two keys is a map of
maps.
-/

namespace Memo

variable {σ ι ο : Type*}

def stateAfter (step : σ → ι → σ × ο) (state : σ) (queries : List ι) : σ :=
  queries.foldl (fun state query => (step state query).1) state

def answers (step : σ → ι → σ × ο) : σ → List ι → List ο
  | _, [] => []
  | state, query :: rest => (step state query).2 :: answers step (step state query).1 rest

variable {step : σ → ι → σ × ο}

@[simp] theorem stateAfter_nil (state : σ) : stateAfter step state [] = state := rfl

@[simp] theorem stateAfter_cons (state : σ) (query : ι) (rest : List ι) :
    stateAfter step state (query :: rest) = stateAfter step (step state query).1 rest := rfl

@[simp] theorem stateAfter_append (state : σ) (first second : List ι) :
    stateAfter step state (first ++ second) = stateAfter step (stateAfter step state first) second :=
  List.foldl_append

@[simp] theorem answers_nil (state : σ) : answers step state [] = [] := rfl

@[simp] theorem answers_cons (state : σ) (query : ι) (rest : List ι) :
    answers step state (query :: rest) = (step state query).2 :: answers step (step state query).1 rest := rfl

@[simp] theorem answers_append (state : σ) (first second : List ι) :
    answers step state (first ++ second) =
      answers step state first ++ answers step (stateAfter step state first) second := by
  induction first generalizing state with
  | nil => rfl
  | cons query rest ih => simp [ih]

@[simp] theorem length_answers (state : σ) (queries : List ι) :
    (answers step state queries).length = queries.length := by
  induction queries generalizing state with
  | nil => rfl
  | cons query rest ih => simp [ih]

theorem getElem?_answers (state : σ) (queries : List ι) (index : Nat) :
    (answers step state queries)[index]? =
      queries[index]?.map fun query => (step (stateAfter step state (queries.take index)) query).2 := by
  induction queries generalizing state index with
  | nil => simp
  | cons query rest ih =>
    cases index with
    | zero => simp
    | succ index => simp [ih]

/-- A run over groups of queries gives what is expected of each group if and only if the run over all the queries gives
the answers of the function. -/
theorem answers_groups_iff {α β : Type*} {turn : σ → α → σ × β} {asks : α → List ι} {direct : ι → ο} {expected : α → β}
    (state_eq : ∀ state group, (turn state group).1 = stateAfter step state (asks group))
    (turn_iff : ∀ state group,
      (turn state group).2 = expected group ↔ answers step state (asks group) = (asks group).map direct)
    {state : σ} {groups : List α} :
    answers turn state groups = groups.map expected ↔
      answers step state (groups.flatMap asks) = (groups.flatMap asks).map direct := by
  induction groups generalizing state with
  | nil => simp
  | cons group rest ih =>
    rw [answers_cons, List.map_cons, List.cons.injEq, turn_iff, ih, state_eq, List.flatMap_cons,
      answers_append, List.map_append]
    constructor
    · rintro ⟨first, later⟩
      rw [first, later]
    · intro both
      exact List.append_inj both (by simp)

/-- The answers are those of the function if and only if each is, after the queries before it. -/
theorem answers_eq_map_iff {direct : ι → ο} {state : σ} {queries : List ι} :
    answers step state queries = queries.map direct ↔
      ∀ before query after, queries = before ++ query :: after →
        (step (stateAfter step state before) query).2 = direct query := by
  induction queries generalizing state with
  | nil => simp
  | cons query rest ih =>
    rw [answers_cons, List.map_cons, List.cons.injEq, ih]
    constructor
    · rintro ⟨first, later⟩ before query' after split
      cases before with
      | nil =>
        obtain ⟨rfl, rfl⟩ := List.cons.inj split
        exact first
      | cons head before =>
        obtain ⟨rfl, splitRest⟩ := List.cons.inj split
        exact later before query' after splitRest
    · intro each
      refine ⟨each [] query rest rfl, fun before query' after split => ?_⟩
      exact each (query :: before) query' after (by rw [split]; rfl)

/-- What holds at the start and is kept by every query holds, with the queries so far, of the state they leave. -/
theorem stateAfter_induction {invariant : List ι → σ → Prop} {state : σ} (start : invariant [] state)
    (keeps : ∀ before state query, invariant before state → invariant (before ++ [query]) (step state query).1)
    (queries : List ι) : invariant queries (stateAfter step state queries) := by
  induction queries using List.reverseRecOn with
  | nil => exact start
  | append_singleton before query ih =>
    rw [stateAfter_append]
    exact keeps _ _ _ ih

/-! ## Relations between a query and the queries before it -/

/-- A relation holds pairwise if and only if it holds of everything before an element and the element. -/
theorem pairwise_iff_split {related : ι → ι → Prop} {queries : List ι} :
    queries.Pairwise related ↔
      ∀ before query after, queries = before ++ query :: after → ∀ earlier ∈ before, related earlier query := by
  constructor
  · rintro pairwise before query after rfl earlier member
    exact (List.pairwise_append.mp pairwise).2.2 earlier member query List.mem_cons_self
  · intro each
    induction queries using List.reverseRecOn with
    | nil => exact .nil
    | append_singleton before query ih =>
      refine List.pairwise_append.mpr ⟨ih ?_, List.pairwise_singleton _ _, ?_⟩
      · intro before' query' after split
        exact each before' query' (after ++ [query]) (by rw [split]; simp)
      · intro earlier member query' same
        obtain rfl := List.mem_singleton.mp same
        exact each before _ [] rfl earlier member

/-- When every query agrees with the first one that was remembered before it, it agrees with all that could have been. -/
theorem agrees_of_first {γ : Type*} {asks : ι → Prop} {remembered : ι → Bool} {value : ι → γ} {queries : List ι}
    (remembered_asks : ∀ query, remembered query = true → asks query)
    (agrees : ∀ before query after, queries = before ++ query :: after → asks query →
      ∀ first, before.find? remembered = some first → value first = value query)
    {before after : List ι} {query : ι} (split : queries = before ++ query :: after) (asked : asks query)
    {earlier : ι} (member : earlier ∈ before) (kept : remembered earlier = true) :
    value earlier = value query := by
  obtain ⟨first, found⟩ := Option.isSome_iff_exists.mp (List.find?_isSome.mpr ⟨earlier, member, kept⟩)
  rw [← agrees before query after split asked first found]
  obtain ⟨sooner, later, rfl⟩ := List.append_of_mem member
  rw [List.find?_append] at found
  cases located : sooner.find? remembered with
  | none =>
    -- the earlier query is itself the first one
    rw [located, List.find?_cons_of_pos kept, Option.none_or, Option.some.injEq] at found
    rw [found]
  | some other =>
    rw [located, Option.some_or, Option.some.injEq] at found
    subst found
    refine (agrees sooner earlier (later ++ query :: after) ?_ (remembered_asks earlier kept) other located).symm
    rw [split, List.append_assoc, List.cons_append]

end Memo

/-! ## Maps of maps -/

namespace OrderedMap

variable {κ κ' ν : Type*} [DecidableEq κ] [DecidableEq κ']

def getIn (map : OrderedMap κ (OrderedMap κ' ν)) (key : κ) (key' : κ') : Option ν :=
  (map.get? key).bind (·.get? key')

/-- The inner map of the key is there, an empty one if there was none. -/
def initAt (map : OrderedMap κ (OrderedMap κ' ν)) (key : κ) : OrderedMap κ (OrderedMap κ' ν) :=
  if (map.get? key).isNone then map.set key ∅ else map

def setIn (map : OrderedMap κ (OrderedMap κ' ν)) (key : κ) (key' : κ') (value : ν) :
    OrderedMap κ (OrderedMap κ' ν) :=
  map.set key (((map.get? key).getD ∅).set key' value)

@[simp] theorem getIn_empty (key : κ) (key' : κ') : (∅ : OrderedMap κ (OrderedMap κ' ν)).getIn key key' = none := rfl

@[simp] theorem getIn_initAt (map : OrderedMap κ (OrderedMap κ' ν)) (key other : κ) (key' : κ') :
    (map.initAt key).getIn other key' = map.getIn other key' := by
  simp only [initAt, getIn]
  split
  · rename_i absent
    rw [get?_set]
    split
    · rename_i same
      simp [same, Option.isNone_iff_eq_none.mp absent]
    · rfl
  · rfl

theorem getIn_setIn (map : OrderedMap κ (OrderedMap κ' ν)) (key other : κ) (key' other' : κ') (value : ν) :
    (map.setIn key key' value).getIn other other' =
      if other = key ∧ other' = key' then some value else map.getIn other other' := by
  simp only [setIn, getIn, get?_set]
  by_cases same : other = key
  · subst same
    by_cases same' : other' = key'
    · simp [same']
    · cases found : map.get? other with
      | none => simp [same', get?_set]
      | some inner => simp [same', get?_set]
  · simp [same]

theorem put_append {before rest : List (κ × ν)} {key : κ} (absent : key ∉ before.map Prod.fst) (value : ν) :
    put key value (before ++ rest) = before ++ put key value rest := by
  induction before with
  | nil => rfl
  | cons entry before ih =>
    simp only [List.map_cons, List.mem_cons, not_or] at absent
    simp [put, Ne.symm absent.1, ih absent.2]

/-- Every value is replaced by one that may depend on its key. -/
def mapEntries {ν' : Type*} (map : OrderedMap κ ν) (replace : κ → ν → ν') : OrderedMap κ ν' where
  entries := map.entries.map fun entry => (entry.1, replace entry.1 entry.2)
  nodupKeys := by simpa [Function.comp_def] using map.nodupKeys

theorem get?_mapEntries {ν' : Type*} (map : OrderedMap κ ν) (replace : κ → ν → ν') (key : κ) :
    (map.mapEntries replace).get? key = (map.get? key).map (replace key) := by
  cases found : map.get? key with
  | some value =>
    exact get?_eq_some.mpr (List.mem_map.mpr ⟨(key, value), get?_eq_some.mp found, rfl⟩)
  | none =>
    rw [get?_eq_none] at found
    refine get?_eq_none.mpr fun member => found ?_
    simpa [keys, mapEntries] using member

/-- Maps with the same keys in the same order and the same values are equal. -/
theorem ext_get? {left right : OrderedMap κ ν} (sameKeys : left.keys = right.keys)
    (same : ∀ key ∈ left.keys, left.get? key = right.get? key) : left = right := by
  apply ext_entries
  have length_eq : left.entries.length = right.entries.length := by
    simpa [keys] using congrArg List.length sameKeys
  refine List.ext_getElem length_eq fun index inLeft inRight => ?_
  have key_eq : left.entries[index].1 = right.entries[index].1 := by
    simpa [keys] using List.getElem_of_eq sameKeys (by simpa [keys] using inLeft)
  have atLeft : left.get? left.entries[index].1 = some left.entries[index].2 :=
    get?_eq_some.mpr (List.getElem_mem inLeft)
  have atRight : right.get? right.entries[index].1 = some right.entries[index].2 :=
    get?_eq_some.mpr (List.getElem_mem inRight)
  rw [same _ (mem_keys_of_get? atLeft), key_eq, atRight, Option.some.injEq] at atLeft
  exact Prod.ext key_eq atLeft.symm

theorem entries_set_of_split {map : OrderedMap κ ν} {before after : List (κ × ν)} {key : κ} {old : ν}
    (split : map.entries = before ++ (key, old) :: after) (value : ν) :
    (map.set key value).entries = before ++ (key, value) :: after := by
  have absent : key ∉ before.map Prod.fst := by
    intro member
    have nodup := map.nodupKeys
    rw [split, List.map_append, List.nodup_append] at nodup
    exact nodup.2.2 key member key (by simp) rfl
  rw [show (map.set key value).entries = put key value map.entries from rfl, split, put_append absent]
  simp [put]

end OrderedMap
