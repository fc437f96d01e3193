import Mathlib.Algebra.BigOperators.Group.List.Basic
import Mathlib.Algebra.GroupWithZero.Nat
import Mathlib.Data.List.Nodup
import Mathlib.Data.List.Perm.Basic
import Mathlib.Data.List.Count

/-! # Insertion-ordered maps

A finite map that remembers the order in which its keys were first inserted.
Overwriting a key keeps its position, deleting a key removes it, and iteration
follows `entries`.  Distinctness of the keys is a field, so every value of the
type is a map.
-/

/-- A finite map whose entries are kept in insertion order. -/
structure OrderedMap (κ ν : Type*) where
  entries : List (κ × ν)
  nodupKeys : (entries.map Prod.fst).Nodup

namespace OrderedMap

variable {κ ν : Type*}

theorem ext_entries {left right : OrderedMap κ ν} (equal : left.entries = right.entries) :
    left = right := by
  cases left; cases right; cases equal; rfl

instance [DecidableEq κ] [DecidableEq ν] : DecidableEq (OrderedMap κ ν) := fun left right =>
  decidable_of_iff (left.entries = right.entries)
    ⟨ext_entries, fun equal => by rw [equal]⟩

def empty : OrderedMap κ ν := ⟨[], List.nodup_nil⟩

instance : EmptyCollection (OrderedMap κ ν) := ⟨empty⟩

@[simp] theorem entries_empty : (∅ : OrderedMap κ ν).entries = [] := rfl

def keys (map : OrderedMap κ ν) : List κ := map.entries.map Prod.fst

def values (map : OrderedMap κ ν) : List ν := map.entries.map Prod.snd

def size (map : OrderedMap κ ν) : Nat := map.entries.length

@[simp] theorem keys_empty : (∅ : OrderedMap κ ν).keys = [] := rfl

@[simp] theorem values_empty : (∅ : OrderedMap κ ν).values = [] := rfl

@[simp] theorem length_keys (map : OrderedMap κ ν) : map.keys.length = map.size := by
  simp [keys, size]

@[simp] theorem length_values (map : OrderedMap κ ν) : map.values.length = map.size := by
  simp [values, size]

theorem nodup_keys (map : OrderedMap κ ν) : map.keys.Nodup := map.nodupKeys

variable {map : OrderedMap κ ν} {value : ν}

theorem mem_keys_of_mem {key : κ}
    (member : (key, value) ∈ map.entries) : key ∈ map.keys :=
  List.mem_map_of_mem member

theorem mem_values :
    value ∈ map.values ↔ ∃ key, (key, value) ∈ map.entries := by
  simp [values]

theorem mem_keys {key : κ} :
    key ∈ map.keys ↔ ∃ value, (key, value) ∈ map.entries := by
  simp [keys]

theorem value_unique {key : κ} {first second : ν}
    (left : (key, first) ∈ map.entries) (right : (key, second) ∈ map.entries) :
    first = second := by
  have equal := List.inj_on_of_nodup_map map.nodupKeys left right rfl
  exact (Prod.mk.injEq .. ▸ equal).2

theorem mem_entries_of_keyed {keyOf : ν → κ}
    (keyed : ∀ entry ∈ map.entries, entry.1 = keyOf entry.2) (member : value ∈ map.values) :
    (keyOf value, value) ∈ map.entries := by
  obtain ⟨key, inside⟩ := mem_values.mp member
  have filed : key = keyOf value := keyed _ inside
  exact filed ▸ inside

theorem nodup_values_of_keyed {keyOf : ν → κ}
    (keyed : ∀ entry ∈ map.entries, entry.1 = keyOf entry.2) : map.values.Nodup := by
  have keysAre : map.values.map keyOf = map.keys := by
    rw [values, keys, List.map_map]
    exact List.map_congr_left fun entry member => (keyed entry member).symm
  exact List.Nodup.of_map keyOf (keysAre ▸ map.nodup_keys)

theorem nodup_entries (map : OrderedMap κ ν) : map.entries.Nodup :=
  map.nodupKeys.of_map _

def mapValues {ν' : Type*} (map : OrderedMap κ ν) (replace : ν → ν') : OrderedMap κ ν' where
  entries := map.entries.map fun entry => (entry.1, replace entry.2)
  nodupKeys := by simpa [Function.comp_def] using map.nodupKeys

/-- Delete every entry whose value fails `keep`. -/
def filterValues (map : OrderedMap κ ν) (keep : ν → Bool) : OrderedMap κ ν where
  entries := map.entries.filter (fun entry => keep entry.2)
  nodupKeys := map.nodupKeys.sublist (List.filter_sublist.map _)

theorem mem_filterValues {keep : ν → Bool} {key : κ} :
    (key, value) ∈ (map.filterValues keep).entries ↔ (key, value) ∈ map.entries ∧ keep value := by
  simp [filterValues]

theorem size_filterValues_le (map : OrderedMap κ ν) (keep : ν → Bool) : (map.filterValues keep).size ≤ map.size :=
  List.length_filter_le _ _

theorem mem_values_filterValues {keep : ν → Bool} :
    value ∈ (map.filterValues keep).values ↔ value ∈ map.values ∧ keep value := by
  simp only [mem_values, mem_filterValues, exists_and_right]

/-! ## Submaps -/

/-- Every entry of `small` is an entry of `large`. -/
def Submap (small large : OrderedMap κ ν) : Prop := ∀ entry ∈ small.entries, entry ∈ large.entries

theorem Submap.empty (large : OrderedMap κ ν) : (∅ : OrderedMap κ ν).Submap large := by
  intro entry member
  cases member

theorem Submap.values {small large : OrderedMap κ ν} (submap : small.Submap large)
    (member : value ∈ small.values) : value ∈ large.values := by
  obtain ⟨key, inside⟩ := mem_values.mp member
  exact mem_values.mpr ⟨key, submap _ inside⟩

section

variable [DecidableEq κ]

/-! ## Lookup -/

def get? (map : OrderedMap κ ν) (key : κ) : Option ν :=
  (map.entries.find? (fun entry => entry.1 = key)).map Prod.snd

def has (map : OrderedMap κ ν) (key : κ) : Bool := (map.get? key).isSome

@[simp] theorem get?_empty (key : κ) : (∅ : OrderedMap κ ν).get? key = none := rfl

variable {map : OrderedMap κ ν} {key : κ} {value : ν}

theorem get?_eq_some :
    map.get? key = some value ↔ (key, value) ∈ map.entries := by
  constructor
  · intro found
    simp only [get?, Option.map_eq_some_iff] at found
    obtain ⟨⟨key', value'⟩, located, rfl⟩ := found
    have same : key' = key := by simpa using List.find?_some located
    subst same
    exact List.mem_of_find?_eq_some located
  · intro member
    cases located : map.entries.find? (fun entry => entry.1 = key) with
    | none =>
      have absent := List.find?_eq_none.mp located _ member
      simp at absent
    | some entry =>
      obtain ⟨key', value'⟩ := entry
      have same : key' = key := by simpa using List.find?_some located
      subst same
      have equal := value_unique member (List.mem_of_find?_eq_some located)
      simp [get?, located, equal]

theorem get?_mapValues {ν' : Type*} (map : OrderedMap κ ν) (replace : ν → ν') (key : κ) :
    (map.mapValues replace).get? key = (map.get? key).map replace := by
  simp [get?, mapValues, List.find?_map, Function.comp_def]

theorem get?_eq_none : map.get? key = none ↔ key ∉ map.keys := by
  rw [mem_keys]
  constructor
  · rintro missing ⟨value, member⟩
    rw [get?_eq_some.mpr member] at missing
    cases missing
  · intro absent
    cases found : map.get? key with
    | none => rfl
    | some value => exact absurd ⟨value, get?_eq_some.mp found⟩ absent

theorem mem_keys_of_get? (found : map.get? key = some value) :
    key ∈ map.keys :=
  mem_keys_of_mem (get?_eq_some.mp found)

theorem mem_keys_of_bind {β : Type*} {next : ν → Option β} {value : β} (found : (map.get? key).bind next = some value) :
    key ∈ map.keys := by
  obtain ⟨entry, isEntry, _⟩ := Option.bind_eq_some_iff.mp found
  exact mem_keys_of_get? isEntry

theorem has_iff : map.has key = true ↔ key ∈ map.keys := by
  rw [has, Option.isSome_iff_ne_none, ne_eq, get?_eq_none, not_not]

variable {entries : List (κ × ν)}

theorem find?_eq_none_of_notMem (absent : key ∉ entries.map Prod.fst) :
    entries.find? (fun entry => entry.1 = key) = none := by
  apply List.find?_eq_none.mpr
  intro entry member
  simp only [decide_eq_true_eq]
  exact fun same => absent (same ▸ List.mem_map_of_mem member)

/-! ## Writing and deleting -/

/-- Overwrite the entry of `key` where it stands, or append one. -/
def put (key : κ) (value : ν) : List (κ × ν) → List (κ × ν)
  | [] => [(key, value)]
  | entry :: rest => if entry.1 = key then (key, value) :: rest else entry :: put key value rest

theorem map_fst_put (key : κ) (value : ν) (entries : List (κ × ν)) :
    (put key value entries).map Prod.fst =
      if key ∈ entries.map Prod.fst then entries.map Prod.fst else entries.map Prod.fst ++ [key] := by
  induction entries with
  | nil => simp [put]
  | cons entry rest ih =>
    by_cases same : entry.1 = key
    · simp [put, same]
    · have different : key ≠ entry.1 := fun equal => same equal.symm
      simp only [put, same, if_false, List.map_cons, ih, List.mem_cons, different,
        false_or]
      split <;> rfl

theorem mem_put (distinct : (entries.map Prod.fst).Nodup) {key' : κ} {value' : ν} :
    (key', value') ∈ put key value entries ↔
      (key' = key ∧ value' = value) ∨ (key' ≠ key ∧ (key', value') ∈ entries) := by
  induction entries with
  | nil => simp [put]
  | cons entry rest ih =>
    obtain ⟨entryKey, entryValue⟩ := entry
    simp only [List.map_cons, List.nodup_cons] at distinct
    by_cases same : entryKey = key
    · subst same
      have absent : ∀ other, (entryKey, other) ∉ rest := fun other member =>
        distinct.1 (List.mem_map_of_mem member)
      simp only [put, if_true, List.mem_cons, Prod.mk.injEq]
      constructor
      · rintro (equal | member)
        · exact .inl equal
        · exact .inr ⟨fun equal => absent _ (equal ▸ member), .inr member⟩
      · rintro (equal | ⟨different, equal | member⟩)
        · exact .inl equal
        · exact absurd equal.1 different
        · exact .inr member
    · simp only [put, same, if_false, List.mem_cons, Prod.mk.injEq, ih distinct.2]
      constructor
      · rintro (⟨rfl, rfl⟩ | equal | ⟨different, member⟩)
        · exact .inr ⟨same, .inl ⟨rfl, rfl⟩⟩
        · exact .inl equal
        · exact .inr ⟨different, .inr member⟩
      · rintro (equal | ⟨different, equal | member⟩)
        · exact .inr (.inl equal)
        · exact .inl equal
        · exact .inr (.inr ⟨different, member⟩)

theorem put_of_not_mem (absent : key ∉ entries.map Prod.fst) : put key value entries = entries ++ [(key, value)] := by
  induction entries with
  | nil => rfl
  | cons entry rest ih =>
    simp only [List.map_cons, List.mem_cons, not_or] at absent
    simp [put, Ne.symm absent.1, ih absent.2]

def set (map : OrderedMap κ ν) (key : κ) (value : ν) : OrderedMap κ ν where
  entries := put key value map.entries
  nodupKeys := by
    rw [map_fst_put]
    split
    · exact map.nodupKeys
    · rename_i absent
      exact List.Nodup.append map.nodupKeys (List.nodup_singleton key) (by simpa using absent)

def erase (map : OrderedMap κ ν) (key : κ) : OrderedMap κ ν where
  entries := map.entries.filter (fun entry => entry.1 ≠ key)
  nodupKeys := map.nodupKeys.sublist (List.filter_sublist.map _)

variable {key key' : κ}

theorem mem_set {value value' : ν} :
    (key', value') ∈ (map.set key value).entries ↔
      (key' = key ∧ value' = value) ∨ (key' ≠ key ∧ (key', value') ∈ map.entries) :=
  mem_put map.nodupKeys

theorem mem_erase {value' : ν} :
    (key', value') ∈ (map.erase key).entries ↔ key' ≠ key ∧ (key', value') ∈ map.entries := by
  simp [erase, and_comm]

theorem keys_set (map : OrderedMap κ ν) (key : κ) (value : ν) :
    (map.set key value).keys = if key ∈ map.keys then map.keys else map.keys ++ [key] :=
  map_fst_put key value map.entries

theorem mem_keys_set :
    key' ∈ (map.set key value).keys ↔ key' = key ∨ key' ∈ map.keys := by
  rw [keys_set]
  split
  · rename_i member
    exact ⟨.inr, fun either => either.elim (fun equal => equal ▸ member) id⟩
  · simp [or_comm]

theorem mem_keys_erase :
    key' ∈ (map.erase key).keys ↔ key' ≠ key ∧ key' ∈ map.keys := by
  simp only [mem_keys, mem_erase]
  exact ⟨fun ⟨value, different, member⟩ => ⟨different, value, member⟩,
    fun ⟨different, value, member⟩ => ⟨value, different, member⟩⟩

@[simp] theorem get?_set_self (map : OrderedMap κ ν) (key : κ) (value : ν) :
    (map.set key value).get? key = some value :=
  get?_eq_some.mpr (mem_set.mpr (.inl ⟨rfl, rfl⟩))

theorem get?_set_of_ne (map : OrderedMap κ ν) (value : ν) (different : key' ≠ key) :
    (map.set key value).get? key' = map.get? key' := by
  cases found : map.get? key' with
  | some other => exact get?_eq_some.mpr (mem_set.mpr (.inr ⟨different, get?_eq_some.mp found⟩))
  | none =>
    rw [get?_eq_none] at found ⊢
    rw [mem_keys_set]
    exact fun either => either.elim different found

theorem get?_set (map : OrderedMap κ ν) (key key' : κ) (value : ν) :
    (map.set key value).get? key' = if key' = key then some value else map.get? key' := by
  split
  · rename_i same; subst same; exact get?_set_self map key' value
  · rename_i different; exact get?_set_of_ne map value different

/-- `{ ...first, ...second }` -/
def spread (first second : OrderedMap κ ν) : OrderedMap κ ν :=
  second.entries.foldl (fun map entry => map.set entry.1 entry.2) first

theorem get?_spread (first second : OrderedMap κ ν) (key : κ) :
    (first.spread second).get? key = (second.get? key).or (first.get? key) := by
  obtain ⟨entries, nodup⟩ := second
  have assigned : ∀ map : OrderedMap κ ν,
      (entries.foldl (fun map entry => map.set entry.1 entry.2) map).get? key =
        ((entries.find? fun entry => entry.1 = key).map Prod.snd).or (map.get? key) := by
    induction entries with
    | nil => exact fun map => rfl
    | cons entry rest ih =>
      intro map
      rw [List.map_cons, List.nodup_cons] at nodup
      rw [List.foldl_cons, ih nodup.2, get?_set, List.find?_cons]
      by_cases same : entry.1 = key
      · simp [same, find?_eq_none_of_notMem (same ▸ nodup.1)]
      · simp [same, Ne.symm same]
  exact assigned first

theorem mem_keys_spread {first second : OrderedMap κ ν} :
    key ∈ (first.spread second).keys ↔ key ∈ first.keys ∨ key ∈ second.keys := by
  rw [← not_iff_not, not_or, ← get?_eq_none, ← get?_eq_none, ← get?_eq_none, get?_spread, Option.or_eq_none_iff,
    and_comm]

@[simp] theorem get?_erase_self (map : OrderedMap κ ν) (key : κ) : (map.erase key).get? key = none :=
  get?_eq_none.mpr fun member => (mem_keys_erase.mp member).1 rfl

theorem get?_erase_of_ne (map : OrderedMap κ ν) (different : key' ≠ key) :
    (map.erase key).get? key' = map.get? key' := by
  cases found : map.get? key' with
  | some other => exact get?_eq_some.mpr (mem_erase.mpr ⟨different, get?_eq_some.mp found⟩)
  | none =>
    rw [get?_eq_none] at found ⊢
    exact fun member => found (mem_keys_erase.mp member).2

@[simp] theorem set_set (map : OrderedMap κ ν) (key : κ) (first second : ν) :
    (map.set key first).set key second = map.set key second := by
  apply ext_entries
  change put key second (put key first map.entries) = put key second map.entries
  induction map.entries with
  | nil => simp [put]
  | cons entry rest ih =>
    by_cases same : entry.1 = key
    · simp [put, same]
    · simp [put, same, ih]

theorem set_of_get? (found : map.get? key = some value) : map.set key value = map := by
  have member := get?_eq_some.mp found
  obtain ⟨entries, nodup⟩ := map
  apply ext_entries
  change put key value entries = entries
  induction entries with
  | nil => cases member
  | cons entry rest ih =>
    rw [List.map_cons, List.nodup_cons] at nodup
    cases List.mem_cons.mp member with
    | inl first => simp [put, ← first]
    | inr later =>
      have other : entry.1 ≠ key := fun same => nodup.1 (same ▸ List.mem_map_of_mem later)
      simp [put, other, ih nodup.2 (get?_eq_some.mpr later) later]

/-- To set some keys to values of their own leaves a map that has these values. -/
theorem foldl_set_eq_self_iff {written : κ → ν} {keys : List κ} :
    keys.foldl (fun map key => map.set key (written key)) map = map ↔
      ∀ key ∈ keys, map.get? key = some (written key) := by
  have get?_foldl : ∀ (map : OrderedMap κ ν) (key : κ), (key ∈ keys ∨ map.get? key = some (written key)) →
      (keys.foldl (fun map key => map.set key (written key)) map).get? key = some (written key) := by
    induction keys with
    | nil => simp
    | cons first rest ih =>
      intro map key either
      refine ih (map.set first (written first)) key ?_
      grind [get?_set]
  constructor
  · intro same key member
    rw [← same]
    exact get?_foldl map key (.inl member)
  · clear get?_foldl
    intro found
    induction keys with
    | nil => rfl
    | cons first rest ih =>
      rw [List.forall_mem_cons] at found
      rw [List.foldl_cons, set_of_get? found.1, ih found.2]

theorem erase_set_self (map : OrderedMap κ ν) (key : κ) (value : ν) :
    (map.set key value).erase key = map.erase key := by
  apply ext_entries
  change (put key value map.entries).filter (fun entry => decide (entry.1 ≠ key)) =
    map.entries.filter (fun entry => decide (entry.1 ≠ key))
  induction map.entries with
  | nil => simp [put]
  | cons entry rest ih =>
    by_cases same : entry.1 = key
    · simp [put, same]
    · simp only [put, same, if_false, List.filter_cons, ih]

theorem erase_of_not_mem (absent : key ∉ map.keys) :
    map.erase key = map := by
  apply ext_entries
  apply List.filter_eq_self.mpr
  intro entry member
  simp only [decide_eq_true_eq]
  exact fun equal => absent (equal ▸ List.mem_map_of_mem member)

variable {keyOf : ν → κ}

theorem foldl_set_values (keyed : ∀ entry ∈ map.entries, entry.1 = keyOf entry.2) :
    map.values.foldl (fun table value => table.set (keyOf value) value) ∅ = map := by
  have build : ∀ (entries : List (κ × ν)) (table : OrderedMap κ ν),
      (∀ entry ∈ entries, entry.1 = keyOf entry.2) →
      ((table.entries ++ entries).map Prod.fst).Nodup →
      ((entries.map Prod.snd).foldl (fun table value => table.set (keyOf value) value) table).entries =
        table.entries ++ entries := by
    intro entries
    induction entries with
    | nil => intro table _ _; simp
    | cons entry rest ih =>
      intro table keyed distinct
      have own : keyOf entry.2 = entry.1 := (keyed entry List.mem_cons_self).symm
      have absent : entry.1 ∉ table.keys := by
        rw [List.map_append, List.map_cons] at distinct
        intro member
        exact (List.nodup_append.mp distinct).2.2 _ member _ List.mem_cons_self rfl
      have appended : (table.set (keyOf entry.2) entry.2).entries = table.entries ++ [entry] := by
        rw [own]
        exact put_of_not_mem absent
      rw [List.map_cons, List.foldl_cons, ih _
        (fun other member => keyed other (List.mem_cons_of_mem _ member)) (by simpa [appended] using distinct),
        appended, List.append_assoc, List.singleton_append]
  exact ext_entries (by simpa [values] using build map.entries ∅ keyed (by simpa using map.nodupKeys))

/-! ## Writing a list of values under computed keys -/

theorem mem_values_of_mem_foldl_set (added : List ν)
    (member : value ∈ (added.foldl (fun table value => table.set (keyOf value) value) map).values) :
    value ∈ map.values ∨ value ∈ added := by
  induction added generalizing map with
  | nil => exact .inl member
  | cons first rest ih =>
    rcases ih member with inSet | inRest
    · obtain ⟨key, inside⟩ := mem_values.mp inSet
      rcases mem_set.mp inside with ⟨_, rfl⟩ | ⟨_, old⟩
      · exact .inr List.mem_cons_self
      · exact .inl (mem_values.mpr ⟨key, old⟩)
    · exact .inr (List.mem_cons_of_mem _ inRest)

theorem keyed_foldl_set (added : List ν) (keyed : ∀ entry ∈ map.entries, entry.1 = keyOf entry.2) :
    ∀ entry ∈ (added.foldl (fun table value => table.set (keyOf value) value) map).entries,
      entry.1 = keyOf entry.2 := by
  induction added generalizing map with
  | nil => exact keyed
  | cons first rest ih =>
    refine ih fun entry member => ?_
    rcases mem_set.mp member with ⟨sameKey, sameValue⟩ | ⟨_, old⟩
    · rw [sameKey, sameValue]
    · exact keyed _ old

theorem mem_values_foldl_set {added : List ν} (keyed : ∀ entry ∈ map.entries, entry.1 = keyOf entry.2)
    (distinct : ∀ first ∈ map.values ++ added, ∀ second ∈ map.values ++ added,
      keyOf first = keyOf second → first = second) :
    value ∈ (added.foldl (fun table value => table.set (keyOf value) value) map).values ↔
      value ∈ map.values ∨ value ∈ added := by
  refine ⟨mem_values_of_mem_foldl_set added, ?_⟩
  induction added generalizing map with
  | nil => rintro (old | absent); exacts [old, by cases absent]
  | cons first rest ih =>
    intro member
    have keyedNext : ∀ entry ∈ (map.set (keyOf first) first).entries, entry.1 = keyOf entry.2 :=
      keyed_foldl_set [first] keyed
    have subset : ∀ other ∈ (map.set (keyOf first) first).values ++ rest,
        other ∈ map.values ++ first :: rest := by
      intro other inside
      rcases List.mem_append.mp inside with inSet | inRest
      · rcases mem_values_of_mem_foldl_set [first] inSet with old | isFirst
        · exact List.mem_append_left _ old
        · exact List.mem_append_right _ (List.mem_singleton.mp isFirst ▸ List.mem_cons_self)
      · exact List.mem_append_right _ (List.mem_cons_of_mem _ inRest)
    refine ih keyedNext (fun one oneMember two twoMember =>
      distinct one (subset one oneMember) two (subset two twoMember)) ?_
    rcases member with old | isAdded
    · left
      obtain ⟨key, inside⟩ := mem_values.mp old
      by_cases same : key = keyOf first
      · have ownKey : keyOf value = keyOf first := (keyed _ inside).symm.trans same
        have equal := distinct value (List.mem_append_left _ old) first (by simp) ownKey
        exact mem_values.mpr ⟨keyOf first, mem_set.mpr (.inl ⟨rfl, equal⟩)⟩
      · exact mem_values.mpr ⟨key, mem_set.mpr (.inr ⟨same, inside⟩)⟩
    · rcases List.mem_cons.mp isAdded with rfl | inRest
      · exact .inl (mem_values.mpr ⟨keyOf value, mem_set.mpr (.inl ⟨rfl, rfl⟩)⟩)
      · exact .inr inRest

/-! ## Copying into a submap -/

variable {small large : OrderedMap κ ν}

omit [DecidableEq κ] in
theorem Submap.size_le (submap : small.Submap large) :
    small.size ≤ large.size :=
  (List.subperm_of_subset small.nodup_entries submap).length_le

theorem Submap.set (submap : small.Submap large) {key : κ} {value : ν}
    (member : (key, value) ∈ large.entries) : (small.set key value).Submap large := by
  rintro ⟨key', value'⟩ inside
  rcases mem_set.mp inside with ⟨rfl, rfl⟩ | ⟨_, old⟩
  · exact member
  · exact submap _ old

theorem Submap.values_prefix_set (submap : small.Submap large) {key : κ}
    {value : ν} (member : (key, value) ∈ large.entries) : small.values <+: (small.set key value).values := by
  have inPlace : ∀ entries : List (κ × ν), (∀ entry ∈ entries, entry ∈ large.entries) →
      entries.map Prod.snd <+: (put key value entries).map Prod.snd := by
    intro entries inLarge
    induction entries with
    | nil => exact List.nil_prefix
    | cons entry rest ih =>
      have restInLarge := fun other inside => inLarge other (List.mem_cons_of_mem _ inside)
      by_cases same : entry.1 = key
      · have inside : (key, entry.2) ∈ large.entries := same ▸ inLarge entry List.mem_cons_self
        have sameValue : entry.2 = value := value_unique inside member
        simp [put, same, sameValue]
      · simpa [put, same] using ih restInLarge
  exact inPlace small.entries submap

theorem Submap.mem_values_set (submap : small.Submap large) {key : κ}
    {value : ν} (member : (key, value) ∈ large.entries) {other : ν} :
    other ∈ (small.set key value).values ↔ other ∈ small.values ∨ other = value := by
  constructor
  · intro inside
    obtain ⟨key', inside⟩ := mem_values.mp inside
    rcases mem_set.mp inside with ⟨_, rfl⟩ | ⟨_, old⟩
    · exact .inr rfl
    · exact .inl (mem_values.mpr ⟨key', old⟩)
  · rintro (inside | rfl)
    · obtain ⟨key', old⟩ := mem_values.mp inside
      by_cases same : key' = key
      · subst same
        have equal := value_unique (submap _ old) member
        exact mem_values.mpr ⟨key', mem_set.mpr (.inl ⟨rfl, equal⟩)⟩
      · exact mem_values.mpr ⟨key', mem_set.mpr (.inr ⟨same, old⟩)⟩
    · exact mem_values.mpr ⟨key, mem_set.mpr (.inl ⟨rfl, rfl⟩)⟩

/-! ## The entries as a multiset -/

/-- The entries of a map are the entry of one key and the entries of the others. -/
theorem entries_perm_of_get? (found : map.get? key = some value) :
    map.entries.Perm ((key, value) :: (map.erase key).entries) := by
  have split : ∀ entries : List (κ × ν), (entries.map Prod.fst).Nodup → (key, value) ∈ entries →
      entries.Perm ((key, value) :: entries.filter (fun entry => entry.1 ≠ key)) := by
    intro entries distinct member
    induction entries with
    | nil => cases member
    | cons entry rest ih =>
      simp only [List.map_cons, List.nodup_cons] at distinct
      cases List.mem_cons.mp member with
      | inl isFirst =>
        subst isFirst
        have untouched : rest.filter (fun entry => entry.1 ≠ key) = rest := by
          apply List.filter_eq_self.mpr
          intro other inside
          simp only [decide_eq_true_eq]
          intro same
          exact distinct.1 (List.mem_map.mpr ⟨other, inside, same⟩)
        rw [List.filter_cons_of_neg (by simp), untouched]
      | inr inRest =>
        have different : entry.1 ≠ key := by
          intro same
          exact distinct.1 (List.mem_map.mpr ⟨_, inRest, same.symm⟩)
        rw [List.filter_cons_of_pos (by simpa using different)]
        exact ((ih distinct.2 inRest).cons _).trans (List.Perm.swap _ _ _)
  exact split map.entries map.nodupKeys (get?_eq_some.mp found)

theorem entries_set_perm (map : OrderedMap κ ν) (key : κ) (value : ν) :
    (map.set key value).entries.Perm ((key, value) :: (map.erase key).entries) := by
  have perm := entries_perm_of_get? (get?_set_self map key value)
  rwa [erase_set_self] at perm

theorem countP_of_get? (found : map.get? key = some value) (test : κ × ν → Bool) :
    map.entries.countP test = (map.erase key).entries.countP test + if test (key, value) then 1 else 0 := by
  rw [(entries_perm_of_get? found).countP_eq, List.countP_cons]

theorem countP_set (map : OrderedMap κ ν) (key : κ) (value : ν) (test : κ × ν → Bool) :
    (map.set key value).entries.countP test =
      (map.erase key).entries.countP test + if test (key, value) then 1 else 0 := by
  rw [(entries_set_perm map key value).countP_eq, List.countP_cons]

theorem countP_erase_le (map : OrderedMap κ ν) (key : κ) (test : κ × ν → Bool) :
    (map.erase key).entries.countP test ≤ map.entries.countP test :=
  List.filter_sublist.countP_le

theorem size_erase_of_get? (found : map.get? key = some value) :
    (map.erase key).size + 1 = map.size := by
  simpa [size] using (entries_perm_of_get? found).length_eq.symm

theorem size_erase_le (map : OrderedMap κ ν) (key : κ) : (map.erase key).size ≤ map.size :=
  List.length_filter_le _ _

theorem size_set_le (map : OrderedMap κ ν) (key : κ) (value : ν) : (map.set key value).size ≤ map.size + 1 := by
  have perm := (entries_set_perm map key value).length_eq
  have smaller := size_erase_le map key
  simp only [size, List.length_cons] at *
  omega

end

/-! ## Sums over the entries -/

section

variable [DecidableEq κ]

end

/-! ## Maps that a loop builds -/

section

variable {ε : Type*} {κ ν : Type} [DecidableEq κ]

/-- A turn of a loop that sets a value for some of its keys. -/
def setFrom (value : κ → Except ε (Option ν)) (map : OrderedMap κ ν) (key : κ) : Except ε (OrderedMap κ ν) := do
  match ← value key with
  | some found => .ok (map.set key found)
  | none => .ok map

theorem entries_set_of_not_mem {map : OrderedMap κ ν} {key : κ} (absent : key ∉ map.keys) (value : ν) :
    (map.set key value).entries = map.entries ++ [(key, value)] :=
  put_of_not_mem absent

variable {keys : List κ}

/-- The map has the keys that got a value, in the order of the loop. -/
theorem foldlM_setFrom {value : κ → Except ε (Option ν)} {given : κ → Option ν}
    (nodup : keys.Nodup) (each : ∀ key ∈ keys, value key = .ok (given key)) {map : OrderedMap κ ν}
    (fresh : ∀ key ∈ keys, key ∉ map.keys) :
    ∃ final, keys.foldlM (setFrom value) map = .ok final ∧
      final.entries = map.entries ++ keys.filterMap fun key => (given key).map (Prod.mk key) := by
  induction keys generalizing map with
  | nil => exact ⟨map, rfl, by simp⟩
  | cons key rest ih =>
    obtain ⟨absent, nodupRest⟩ := List.nodup_cons.mp nodup
    have eachRest := fun other member => each other (List.mem_cons_of_mem key member)
    have first := each key List.mem_cons_self
    have turn : setFrom value map key = match given key with
        | some found => .ok (map.set key found)
        | none => .ok map := by
      rw [setFrom, first]; rfl
    rw [List.foldlM_cons, turn]
    cases result : given key with
    | none =>
      obtain ⟨final, returns, entries⟩ := ih nodupRest eachRest
        fun other member => fresh other (List.mem_cons_of_mem key member)
      exact ⟨final, returns, by rw [entries, List.filterMap_cons, result]; rfl⟩
    | some found =>
      obtain ⟨final, returns, entries⟩ := @ih nodupRest eachRest (map.set key found) (by
        intro other member
        rw [mem_keys_set, not_or]
        exact ⟨fun same => absent (same ▸ member), fresh other (List.mem_cons_of_mem key member)⟩)
      refine ⟨final, returns, ?_⟩
      rw [entries, entries_set_of_not_mem (fresh key List.mem_cons_self), List.filterMap_cons, result,
        List.append_assoc]
      rfl

theorem entries_foldl_set {value : ν} (nodup : keys.Nodup) {map : OrderedMap κ ν}
    (fresh : ∀ key ∈ keys, key ∉ map.keys) :
    (keys.foldl (fun map key => map.set key value) map).entries = map.entries ++ keys.map fun key => (key, value) := by
  induction keys generalizing map with
  | nil => simp
  | cons key rest ih =>
    obtain ⟨absent, nodupRest⟩ := List.nodup_cons.mp nodup
    rw [List.foldl_cons, ih nodupRest (by
        intro other member
        rw [mem_keys_set, not_or]
        exact ⟨fun same => absent (same ▸ member), fresh other (List.mem_cons_of_mem key member)⟩),
      entries_set_of_not_mem (fresh key List.mem_cons_self), List.append_assoc]
    rfl

variable {value : κ → Except ε (Option ν)}

theorem foldlM_setFrom_inv {map final : OrderedMap κ ν}
    (returns : keys.foldlM (setFrom value) map = .ok final) : ∀ key ∈ keys, ∃ found, value key = .ok found := by
  induction keys generalizing map with
  | nil => intro key member; cases member
  | cons key rest ih =>
    rw [List.foldlM_cons] at returns
    cases result : value key with
    | error error =>
      rw [setFrom, result] at returns
      cases returns
    | ok found =>
      intro other member
      rcases List.mem_cons.mp member with rfl | member
      · exact ⟨found, result⟩
      · rw [setFrom, result] at returns
        cases found with
        | none => exact ih returns other member
        | some found => exact ih returns other member

theorem foldlM_setFrom_empty {given : κ → Option ν} (nodup : keys.Nodup)
    (each : ∀ key ∈ keys, value key = .ok (given key)) :
    ∃ final : OrderedMap κ ν, keys.foldlM (setFrom value) ∅ = .ok final ∧
      final.entries = keys.filterMap fun key => (given key).map (Prod.mk key) :=
  foldlM_setFrom nodup each fun _ _ => List.not_mem_nil

/-- A loop that started from an empty map is made of the values it got. -/
theorem foldlM_setFrom_eq (nodup : keys.Nodup) {final : OrderedMap κ ν}
    (returns : keys.foldlM (setFrom value) ∅ = .ok final) :
    ∃ given : κ → Option ν, (∀ key ∈ keys, value key = .ok (given key)) ∧
      final.entries = keys.filterMap fun key => (given key).map (Prod.mk key) := by
  have each : ∀ key ∈ keys, value key = .ok (match value key with | .ok found => found | .error _ => none) := by
    intro key member
    obtain ⟨found, result⟩ := foldlM_setFrom_inv returns key member
    rw [result]
  obtain ⟨final', returns', entries⟩ := foldlM_setFrom_empty nodup each
  obtain rfl : final' = final := Except.ok.inj (returns'.symm.trans returns)
  exact ⟨_, each, entries⟩

/-! ## Deleting many keys -/

/-- `next` is `map` without the keys that `removed` holds of. -/
def Pruned (map next : OrderedMap κ ν) (removed : κ → Prop) : Prop :=
  ∀ key, (removed key → next.get? key = none) ∧ (¬ removed key → next.get? key = map.get? key)

theorem Pruned.refl (map : OrderedMap κ ν) : map.Pruned map fun _ => False :=
  fun _ => ⟨False.elim, fun _ => rfl⟩

theorem Pruned.erase (map : OrderedMap κ ν) (key : κ) : map.Pruned (map.erase key) (· = key) := by
  intro key'
  constructor
  · intro same
    rw [same, get?_erase_self]
  · intro different
    exact get?_erase_of_ne map different

theorem Pruned.trans {map next final : OrderedMap κ ν} {removed removed' : κ → Prop}
    (first : map.Pruned next removed) (second : next.Pruned final removed') :
    map.Pruned final fun key => removed key ∨ removed' key := by
  intro key
  constructor
  · intro either
    by_cases now : removed' key
    · exact (second key).1 now
    · rw [(second key).2 now]
      exact (first key).1 (either.resolve_right now)
  · intro neither
    rw [not_or] at neither
    rw [(second key).2 neither.2, (first key).2 neither.1]

theorem Pruned.congr {map next : OrderedMap κ ν} {removed removed' : κ → Prop} (pruned : map.Pruned next removed)
    (same : ∀ key, removed key ↔ removed' key) : map.Pruned next removed' := by
  intro key
  rw [← same key]
  exact pruned key

/-- A loop whose turns return and delete keys deletes the keys of all turns. -/
theorem foldlM_pruned {α : Type*} {body : OrderedMap κ ν → α → Except ε (OrderedMap κ ν)}
    {removes : α → κ → Prop} {items : List α}
    (turn : ∀ item ∈ items, ∀ map : OrderedMap κ ν, ∃ next, body map item = .ok next ∧ map.Pruned next (removes item))
    (map : OrderedMap κ ν) :
    ∃ final, items.foldlM body map = .ok final ∧ map.Pruned final fun key => ∃ item ∈ items, removes item key := by
  induction items generalizing map with
  | nil => exact ⟨map, rfl, (Pruned.refl map).congr (by simp)⟩
  | cons item rest ih =>
    obtain ⟨next, first, pruned⟩ := turn item List.mem_cons_self map
    obtain ⟨final, remaining, prunedRest⟩ := ih
      (fun other member => turn other (List.mem_cons_of_mem item member)) next
    refine ⟨final, by rw [List.foldlM_cons, first]; exact remaining, (pruned.trans prunedRest).congr fun key => ?_⟩
    rw [List.exists_mem_cons_iff]

theorem foldl_pruned {α : Type*} {body : OrderedMap κ ν → α → OrderedMap κ ν} {removes : α → κ → Prop} {items : List α}
    (turn : ∀ item ∈ items, ∀ map : OrderedMap κ ν, map.Pruned (body map item) (removes item)) (map : OrderedMap κ ν) :
    map.Pruned (items.foldl body map) fun key => ∃ item ∈ items, removes item key := by
  induction items generalizing map with
  | nil => exact (Pruned.refl map).congr (by simp)
  | cons item rest ih =>
    have pruned := ih (fun other member => turn other (List.mem_cons_of_mem item member))
      (body map item)
    refine ((turn item List.mem_cons_self map).trans pruned).congr fun key => ?_
    rw [List.exists_mem_cons_iff]

end

/-! ## Maps of maps -/

section

variable {ρ : Type*} [DecidableEq ρ]

/-- The inner map of a key; a missing one is empty. -/
def row (table : OrderedMap ρ (OrderedMap κ ν)) (name : ρ) : OrderedMap κ ν := (table.get? name).getD ∅

@[simp] theorem row_empty (name : ρ) : (∅ : OrderedMap ρ (OrderedMap κ ν)).row name = ∅ := rfl

theorem row_set (table : OrderedMap ρ (OrderedMap κ ν)) (name name' : ρ) (cells : OrderedMap κ ν) :
    (table.set name cells).row name' = if name' = name then cells else table.row name' := by
  rw [row, row, get?_set]
  split <;> rfl

theorem row_erase (table : OrderedMap ρ (OrderedMap κ ν)) (name name' : ρ) :
    (table.erase name).row name' = if name' = name then ∅ else table.row name' := by
  rw [row, row]
  split
  · rename_i same
    rw [same, get?_erase_self]; rfl
  · rename_i different
    rw [get?_erase_of_ne _ different]

theorem row_of_get?_eq_none {table : OrderedMap ρ (OrderedMap κ ν)} {name : ρ}
    (missing : table.get? name = none) : table.row name = ∅ := by
  rw [row, missing]; rfl

end

end OrderedMap
