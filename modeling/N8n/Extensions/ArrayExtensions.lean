import N8n.Library.Distinct
import N8n.Library.Loop
import N8n.Library.OrderedMap
import N8n.Library.Pieces
import N8n.Library.Turns

/-! # Array extensions of expressions

`chunk` cuts an array into pieces, `union`, `difference` and `intersection` read
two arrays as sets up to strict deep equality, and `merge` lays the objects of
two arrays over each other.
-/

namespace N8n.Extensions

structure ExpressionExtensionError where
  message : String
deriving DecidableEq

/-- The first argument of an extension, by the tests that are made on it. -/
inductive Argument (α : Type*) where
  | undefined
  | number (value : Int)
  | array (elements : List α)
  | other

/-- `const [first] = extraArgs` -/
def firstArgument {α : Type*} (extraArgs : List (Argument α)) : Argument α := extraArgs.headD .undefined

/-! ## `chunk` -/

section Chunk

variable {α : Type*}

/-- The position that an argument of `Array.prototype.slice` stands for. -/
def relativeIndex (length : Nat) (index : Int) : Nat :=
  if index < 0 then (length + index).toNat else min index.toNat length

/-- `value.slice(start, end)` -/
def slice (value : List α) (start stop : Int) : List α :=
  (value.take (relativeIndex value.length stop)).drop (relativeIndex value.length start)

structure ChunkState (α : Type*) where
  i : Int
  chunks : List (List α)

/-- One turn of the loop of `chunk`. -/
def chunkTurn (value : List α) (chunkSize : Int) (state : ChunkState α) : List (List α) ⊕ ChunkState α :=
  if state.i < value.length then
    .inr { i := state.i + chunkSize, chunks := state.chunks ++ [slice value state.i (state.i + chunkSize)] }
  else
    .inl state.chunks

/-- What `chunk` returns or throws within the fuel, nothing when its loop goes on. -/
def chunk (fuel : Nat) (value : List α) (extraArgs : List (Argument α)) :
    Except ExpressionExtensionError (Option (List (List α))) :=
  match firstArgument extraArgs with
  | .number chunkSize =>
    if chunkSize = 0 then
      .error ⟨"chunk(): expected non-zero numeric arg, e.g. .chunk(5)"⟩
    else
      .ok (Turns.run (chunkTurn value chunkSize) fuel { i := 0, chunks := [] })
  | _ => .error ⟨"chunk(): expected non-zero numeric arg, e.g. .chunk(5)"⟩

/-- The call returns, and its chunks are the array cut into pieces of the size. -/
def ChunksExactly (value : List α) (chunkSize : Int) : Prop :=
  ∃ fuel chunks, chunk fuel value [.number chunkSize] = .ok (some chunks) ∧ chunks.flatten = value ∧
    ∀ piece ∈ chunks.dropLast, (piece.length : Int) = chunkSize

theorem relativeIndex_ofNat (length index : Nat) : relativeIndex length index = min index length := by
  rw [relativeIndex, if_neg (Int.not_lt.mpr (Int.natCast_nonneg index)), Int.toNat_natCast]

theorem slice_ofNat (value : List α) (start size : Nat) :
    slice value start (start + size) = (value.drop start).take size := by
  have start_le : (start : Int) + size = ((start + size : Nat) : Int) := (Int.natCast_add start size).symm
  rw [slice, start_le, relativeIndex_ofNat, relativeIndex_ofNat, ← List.take_eq_take_min, List.drop_take]
  by_cases inside : start ≤ value.length
  · rw [Nat.min_eq_left inside, Nat.add_sub_cancel_left]
  · have beyond : value.length ≤ start := by omega
    rw [Nat.min_eq_right beyond, List.drop_length, List.drop_of_length_le beyond, List.take_nil, List.take_nil]

/-- The loop has cut off the elements below its index. -/
def CutOff (value : List α) (size : Nat) (state : ChunkState α) : Prop :=
  ∃ i : Nat, state.i = i ∧ Pieces.CutInto size value state.chunks (value.drop i)

theorem CutOff.turn {value : List α} {size : Nat} {state : ChunkState α} (cut : CutOff value size state)
    (below : state.i < value.length) :
    CutOff value size
      { i := state.i + size, chunks := state.chunks ++ [slice value state.i (state.i + size)] } := by
  obtain ⟨i, isIndex, pieces⟩ := cut
  rw [isIndex] at below ⊢
  have more : value.drop i ≠ [] := fun none => by
    have reached := List.drop_eq_nil_iff.mp none
    omega
  refine ⟨i + size, (Int.natCast_add i size).symm, ?_⟩
  rw [slice_ofNat, ← List.drop_drop]
  exact pieces.next more

theorem chunkTurn_ends (value : List α) {size : Nat} (positive : 0 < size) :
    ∃ turns chunks, Turns.Ends (chunkTurn value size) turns { i := 0, chunks := [] } chunks ∧
      chunks.flatten = value ∧ ∀ piece ∈ chunks.dropLast, piece.length = size := by
  have each : ∀ state : ChunkState α, CutOff value size state →
      (∃ result, chunkTurn value size state = .inl result ∧
        (result.flatten = value ∧ ∀ piece ∈ result.dropLast, piece.length = size)) ∨
      ∃ next, chunkTurn value size state = .inr next ∧ CutOff value size next ∧
        ((value.length - next.i).toNat < (value.length - state.i).toNat ∧ 0 ≤ 0 ∨
          (value.length - next.i).toNat ≤ (value.length - state.i).toNat ∧ 0 < 0) := by
    intro state cut
    by_cases below : state.i < value.length
    · refine .inr ⟨_, if_pos below, cut.turn below, .inl ⟨?_, le_rfl⟩⟩
      simp only
      omega
    · obtain ⟨i, isIndex, pieces⟩ := cut
      have together := pieces.together
      rw [List.drop_of_length_le (by omega), List.append_nil] at together
      exact .inl ⟨state.chunks, if_neg below, together, pieces.allButLast⟩
  have start : CutOff value size { i := 0, chunks := [] } := ⟨0, rfl, Pieces.cutInto_nil size value⟩
  obtain ⟨turns, _, chunks, ends, final⟩ := Turns.ends_of_potential each start
  exact ⟨turns, chunks, ends, final⟩

theorem chunkTurn_goes_on (value : List α) {chunkSize : Int} (negative : chunkSize < 0) (nonempty : value ≠ [])
    {turns : Nat} {chunks : List (List α)} :
    ¬ Turns.Ends (chunkTurn value chunkSize) turns { i := 0, chunks := [] } chunks := by
  have length := List.length_pos_of_ne_nil nonempty
  have each : ∀ state : ChunkState α, state.i < value.length →
      ∃ next, chunkTurn value chunkSize state = .inr next ∧ next.i < value.length := by
    intro state below
    refine ⟨_, if_pos below, ?_⟩
    simp only
    omega
  exact Turns.not_ends_of_invariant each (Int.natCast_pos.mpr length)

theorem chunk_number (fuel : Nat) (value : List α) {chunkSize : Int} (accepted : chunkSize ≠ 0) :
    chunk fuel value [.number chunkSize] =
      .ok (Turns.run (chunkTurn value chunkSize) fuel { i := 0, chunks := [] }) :=
  if_neg accepted

/-- The extension terminates and loses nothing exactly when the size is positive or there is nothing to cut. -/
theorem chunksExactly_iff (value : List α) {chunkSize : Int} (accepted : chunkSize ≠ 0) :
    ChunksExactly value chunkSize ↔ 0 < chunkSize ∨ value = [] := by
  constructor
  · intro ⟨fuel, chunks, returns, _⟩
    rw [chunk_number fuel value accepted] at returns
    obtain ⟨turns, ends⟩ := Turns.exists_run_eq_some_iff.mp ⟨fuel, Except.ok.inj returns⟩
    by_contra neither
    rw [not_or] at neither
    exact chunkTurn_goes_on value (by omega) neither.2 ends
  · rintro (positive | rfl)
    · obtain ⟨size, rfl⟩ := Int.eq_ofNat_of_zero_le positive.le
      obtain ⟨turns, chunks, ends, flat, full⟩ := chunkTurn_ends value (Int.natCast_pos.mp positive)
      obtain ⟨fuel, returns⟩ := Turns.exists_run_eq_some_iff.mpr ⟨turns, ends⟩
      refine ⟨fuel, chunks, ?_, flat, ?_⟩
      · rw [chunk_number fuel value accepted, returns]
      · intro piece member
        rw [full piece member]
    · refine ⟨1, [], ?_, rfl, by simp⟩
      rw [chunk_number 1 [] accepted]
      rfl

theorem chunksExactly_three : ChunksExactly [1, 2, 3] 2 ↔ 0 < (2 : Int) ∨ [1, 2, 3] = [] :=
  chunksExactly_iff [1, 2, 3] (by decide)

theorem not_chunksExactly_negative : ¬ ChunksExactly [1] (-1) := by
  intro ⟨fuel, chunks, returns, _⟩
  rw [chunk_number fuel [1] (by decide)] at returns
  obtain ⟨turns, ends⟩ := Turns.exists_run_eq_some_iff.mp ⟨fuel, Except.ok.inj returns⟩
  exact chunkTurn_goes_on [1] (by decide) (by decide) ends

example : chunk 4 [1, 2, 3, 4, 5] [.number 2] = .ok (some [[1, 2], [3, 4], [5]]) := by decide

end Chunk

/-! ## `union`, `difference` and `intersection` -/

section Sets

variable {α : Type*} (uniqWith : List α → (α → α → Bool) → List α) (deepEqual : α → α → Bool)

/-- `unique(value, [])` -/
def unique (value : List α) : List α := uniqWith value fun a b => deepEqual a b

def union (value : List α) (extraArgs : List (Argument α)) : Except ExpressionExtensionError (List α) :=
  match firstArgument extraArgs with
  | .array others =>
    let newArr := others.foldl
      (fun newArr v => if newArr.any (fun w => deepEqual w v) then newArr else newArr ++ [v]) value
    .ok (unique uniqWith deepEqual newArr)
  | _ => .error ⟨"union(): expected array arg, e.g. .union([1, 2, 3, 4])"⟩

def difference (value : List α) (extraArgs : List (Argument α)) : Except ExpressionExtensionError (List α) :=
  match firstArgument extraArgs with
  | .array others =>
    let newArr := value.filter fun v => !others.any fun w => deepEqual w v
    .ok (unique uniqWith deepEqual newArr)
  | _ => .error ⟨"difference(): expected array arg, e.g. .difference([1, 2, 3, 4])"⟩

def intersection (value : List α) (extraArgs : List (Argument α)) : Except ExpressionExtensionError (List α) :=
  match firstArgument extraArgs with
  | .array others =>
    let newArr := (value.filter fun v => others.any fun w => deepEqual w v) ++
      others.filter fun v => value.any fun w => deepEqual w v
    .ok (unique uniqWith deepEqual newArr)
  | _ => .error ⟨"intersection(): expected array arg, e.g. .intersection([1, 2, 3, 4])"⟩

/-- What lodash documents of `uniqWith`. -/
def UniqWithDocumented : Prop :=
  ∀ items comparator, Distinct.IsEquivalence comparator →
    Distinct.VersionOf comparator items (uniqWith items comparator)

open Distinct (Occurs NoTwo)

/-- What the three results have to do with the arrays and with each other. -/
structure SetLaws (value others united differing common : List α) : Prop where
  ofEither : ∀ item, Occurs deepEqual item united ↔ Occurs deepEqual item value ∨ Occurs deepEqual item others
  unitedOnce : NoTwo deepEqual united
  differingOnce : NoTwo deepEqual differing
  commonOnce : NoTwo deepEqual common
  disjoint : ∀ item, ¬ (Occurs deepEqual item differing ∧ Occurs deepEqual item common)
  together : ∀ item, Occurs deepEqual item differing ∨ Occurs deepEqual item common ↔ Occurs deepEqual item value

def KeepsSetLaws (value others : List α) : Prop :=
  ∃ united differing common, union uniqWith deepEqual value [.array others] = .ok united ∧
    difference uniqWith deepEqual value [.array others] = .ok differing ∧
    intersection uniqWith deepEqual value [.array others] = .ok common ∧
    SetLaws deepEqual value others united differing common

section

variable {uniqWith deepEqual} {value others : List α} {item : α}

theorem any_iff_occurs (equivalence : Distinct.IsEquivalence deepEqual) :
    (others.any fun w => deepEqual w item) = true ↔ Occurs deepEqual item others := by
  simp only [List.any_eq_true, Occurs]
  exact exists_congr fun other => and_congr_right fun _ => ⟨fun alike => equivalence.symm alike,
    fun alike => equivalence.symm alike⟩

theorem any_congr (equivalence : Distinct.IsEquivalence deepEqual) {first second : α} (alike : deepEqual first second) :
    (others.any fun w => deepEqual w first) = others.any fun w => deepEqual w second := by
  rw [Bool.eq_iff_iff, any_iff_occurs equivalence, any_iff_occurs equivalence]
  exact ⟨.of_same equivalence (equivalence.symm alike), .of_same equivalence alike⟩

theorem occurs_unique (documented : UniqWithDocumented uniqWith) (equivalence : Distinct.IsEquivalence deepEqual) :
    Occurs deepEqual item (unique uniqWith deepEqual value) ↔ Occurs deepEqual item value :=
  (documented value deepEqual equivalence).occurs_iff equivalence

theorem noTwo_unique (documented : UniqWithDocumented uniqWith) (equivalence : Distinct.IsEquivalence deepEqual) :
    NoTwo deepEqual (unique uniqWith deepEqual value) :=
  (documented value deepEqual equivalence).noTwo

theorem occurs_differing (equivalence : Distinct.IsEquivalence deepEqual) :
    Occurs deepEqual item (value.filter fun v => !others.any fun w => deepEqual w v) ↔
      ¬ Occurs deepEqual item others ∧ Occurs deepEqual item value := by
  rw [Distinct.occurs_filter fun first second alike => congrArg (!·) (any_congr equivalence alike),
    Bool.not_eq_true', ← Bool.not_eq_true, any_iff_occurs equivalence]

theorem occurs_common (equivalence : Distinct.IsEquivalence deepEqual) :
    Occurs deepEqual item ((value.filter fun v => others.any fun w => deepEqual w v) ++
        others.filter fun v => value.any fun w => deepEqual w v) ↔
      Occurs deepEqual item others ∧ Occurs deepEqual item value := by
  rw [Distinct.occurs_append, Distinct.occurs_filter fun first second alike => any_congr equivalence alike,
    Distinct.occurs_filter fun first second alike => any_congr equivalence alike, any_iff_occurs equivalence,
    any_iff_occurs equivalence, and_comm (a := Occurs deepEqual item value), or_self]

theorem keepsSetLaws (documented : UniqWithDocumented uniqWith) (equivalence : Distinct.IsEquivalence deepEqual)
    (value others : List α) : KeepsSetLaws uniqWith deepEqual value others := by
  refine ⟨_, _, _, rfl, rfl, rfl, ?_, noTwo_unique documented equivalence, noTwo_unique documented equivalence,
    noTwo_unique documented equivalence, ?_, ?_⟩
  · intro item
    rw [occurs_unique documented equivalence]
    exact Distinct.occurs_foldl_keepFirst equivalence
  · intro item
    rw [occurs_unique documented equivalence, occurs_unique documented equivalence, occurs_differing equivalence,
      occurs_common equivalence]
    rintro ⟨⟨absent, _⟩, present, _⟩
    exact absent present
  · intro item
    rw [occurs_unique documented equivalence, occurs_unique documented equivalence, occurs_differing equivalence,
      occurs_common equivalence, ← or_and_right]
    exact and_iff_right (em' _)

end

end Sets

/-! ## `merge` -/

section Merge

/-- The name of a property.  Assigning to `__proto__` writes no property, so that name is left out. -/
abbrev Key := { name : String // name ≠ "__proto__" }

/-- The other names that every object inherits. -/
def objectPrototype : List String :=
  ["constructor", "__defineGetter__", "__defineSetter__", "hasOwnProperty", "__lookupGetter__", "__lookupSetter__",
    "isPrototypeOf", "propertyIsEnumerable", "toString", "valueOf", "toLocaleString"]

/-- An element as the extensions see it: an array is an object with its elements under their indexes. -/
inductive Element (ν : Type*) where
  | undefined
  | null
  | primitive (value : ν) (truthy : Bool)
  | object (isArray : Bool) (properties : OrderedMap Key ν)

namespace Element

variable {ν : Type*}

/-- `!element` -/
def isFalsy : Element ν → Bool
  | undefined | null => true
  | primitive _ truthy => !truthy
  | object _ _ => false

/-- `typeof element === 'object'` -/
def isTypeofObject : Element ν → Bool
  | null | object _ _ => true
  | undefined | primitive _ _ => false

/-- The own properties of an element that is an object or `null`. -/
def ownProperties : Element ν → OrderedMap Key ν
  | object _ properties => properties
  | _ => ∅

end Element

variable {ν : Type*}

/-- `key in newObject` -/
def isIn (key : Key) (newObject : OrderedMap Key ν) : Bool := newObject.has key || key.val ∈ objectPrototype

/-- Copies what the object does not have. -/
def copyMissing (newObject : OrderedMap Key ν) (entry : Key × ν) : OrderedMap Key ν :=
  if isIn entry.1 newObject then newObject else newObject.set entry.1 entry.2

def mergeObjects (value other : Element ν) : Except ExpressionExtensionError (Element ν) :=
  if other.isFalsy then .ok value
  else match other with
    | .object _ properties => .ok (.object false (properties.entries.foldl copyMissing value.ownProperties))
    | _ => .error ⟨"merge(): expected object arg"⟩

/-- One turn of the reduction of `merge` without arguments. -/
def mergeWithin (combined current : Element ν) : Except ExpressionExtensionError (Element ν) :=
  match current with
  | .object false _ => mergeObjects combined current
  | _ => .ok combined

/-- One turn of the loop of `merge` over the indexes of the longer array. -/
def mergeAt (value others : List (Element ν)) (merged : OrderedMap Key ν) (i : Nat) :
    Except ExpressionExtensionError (OrderedMap Key ν) :=
  match value.getD i .undefined with
  | .undefined => .ok merged
  | element =>
    if element.isTypeofObject && (others.getD i .undefined).isTypeofObject then do
      let source ← mergeObjects element (others.getD i .undefined)
      .ok (merged.spread source.ownProperties)
    else .ok merged

def merge (value : List (Element ν)) (extraArgs : List (Argument (Element ν))) :
    Except ExpressionExtensionError (Element ν) :=
  match firstArgument extraArgs with
  | .undefined => value.foldlM mergeWithin (.object false ∅)
  | .array others => do
    let listLength := if value.length > others.length then value.length else others.length
    let merged ← (List.range listLength).foldlM (mergeAt value others) ∅
    .ok (.object false merged)
  | _ => .error ⟨"merge(): expected array arg, e.g. .merge([{ id: 1, otherValue: 3 }])"⟩

def objects (properties : List (OrderedMap Key ν)) : List (Element ν) := properties.map (.object false)

/-- The call returns an object with every key of the elements of both arrays. -/
def KeepsEveryKey (value others : List (OrderedMap Key ν)) : Prop :=
  ∃ merged, merge (objects value) [.array (objects others)] = .ok (.object false merged) ∧
    ∀ key, (∃ properties ∈ value ++ others, key ∈ properties.keys) → key ∈ merged.keys

/-- The key is taken over from two elements that stand at one index. -/
def TakenOver (value others : List (OrderedMap Key ν)) (key : Key) : Prop :=
  ∃ pair ∈ value.zip others, key ∈ pair.1.keys ∨ key ∈ pair.2.keys ∧ key.val ∉ objectPrototype

/-- The keys of the elements beyond the shorter array, and the inherited names in the second array, also stand where
they are taken over. -/
structure SurplusCovered (value others : List (OrderedMap Key ν)) : Prop where
  beyond : ∀ properties ∈ value.drop others.length ++ others.drop value.length, ∀ key ∈ properties.keys,
    TakenOver value others key
  inherited : ∀ pair ∈ value.zip others, ∀ key ∈ pair.2.keys, key.val ∈ objectPrototype → TakenOver value others key

theorem mem_keys_copyMissing {newObject : OrderedMap Key ν} {entry : Key × ν} {key : Key} :
    key ∈ (copyMissing newObject entry).keys ↔ key ∈ newObject.keys ∨ key = entry.1 ∧ key.val ∉ objectPrototype := by
  rw [copyMissing]
  split
  next inside =>
    simp only [isIn, Bool.or_eq_true, decide_eq_true_eq, OrderedMap.has_iff] at inside
    constructor
    · exact .inl
    · rintro (own | ⟨rfl, notInherited⟩)
      · exact own
      · exact inside.resolve_right notInherited
  next outside =>
    simp only [isIn, Bool.or_eq_true, decide_eq_true_eq, OrderedMap.has_iff, not_or] at outside
    rw [OrderedMap.mem_keys_set, or_comm]
    apply or_congr_right
    constructor
    · rintro rfl
      exact ⟨rfl, outside.2⟩
    · exact And.left

theorem mem_keys_foldl_copyMissing {entries : List (Key × ν)} {newObject : OrderedMap Key ν} {key : Key} :
    key ∈ (entries.foldl copyMissing newObject).keys ↔
      key ∈ newObject.keys ∨ key ∈ entries.map Prod.fst ∧ key.val ∉ objectPrototype := by
  induction entries generalizing newObject with
  | nil => simp
  | cons entry rest ih =>
    rw [List.foldl_cons, ih, mem_keys_copyMissing, List.map_cons, List.mem_cons, or_assoc,
      ← or_and_right]

theorem mergeAt_objects (value others : List (OrderedMap Key ν)) (merged : OrderedMap Key ν) (i : Nat) :
    ∃ next, mergeAt (objects value) (objects others) merged i = .ok next ∧
      ∀ key, key ∈ next.keys ↔ key ∈ merged.keys ∨
        ∃ pair ∈ (value.zip others)[i]?, key ∈ pair.1.keys ∨ key ∈ pair.2.keys ∧ key.val ∉ objectPrototype := by
  have atValue : (objects value).getD i .undefined = (value[i]?.map (Element.object false)).getD .undefined := by
    rw [objects, List.getD_eq_getElem?_getD, List.getElem?_map]
  have atOthers : (objects others).getD i .undefined = (others[i]?.map (Element.object false)).getD .undefined := by
    rw [objects, List.getD_eq_getElem?_getD, List.getElem?_map]
  rw [mergeAt, atValue, atOthers, List.zip_eq_zipWith, List.getElem?_zipWith]
  cases value[i]? with
  | none => exact ⟨merged, rfl, by simp⟩
  | some own =>
    cases others[i]? with
    | none => exact ⟨merged, rfl, by simp⟩
    | some other =>
      refine ⟨_, rfl, ?_⟩
      intro key
      have taken : key ∈ (other.entries.foldl copyMissing own).keys ↔
          key ∈ own.keys ∨ key ∈ other.keys ∧ key.val ∉ objectPrototype := mem_keys_foldl_copyMissing
      simp only [Option.mem_def, Option.some.injEq, exists_eq_left']
      exact OrderedMap.mem_keys_spread.trans (or_congr_right taken)

theorem foldlM_mergeAt_objects (value others : List (OrderedMap Key ν)) (turns : Nat) :
    ∃ merged, (List.range turns).foldlM (mergeAt (objects value) (objects others)) ∅ = .ok merged ∧
      ∀ key, key ∈ merged.keys ↔ ∃ i < turns, ∃ pair ∈ (value.zip others)[i]?,
        key ∈ pair.1.keys ∨ key ∈ pair.2.keys ∧ key.val ∉ objectPrototype := by
  induction turns with
  | zero => exact ⟨∅, rfl, by simp⟩
  | succ turns ih =>
    obtain ⟨merged, before, keys⟩ := ih
    obtain ⟨next, turn, keys'⟩ := mergeAt_objects value others merged turns
    refine ⟨next, ?_, ?_⟩
    · rw [List.range_succ, Loop.foldlM_append_ok before, Loop.foldlM_cons_ok turn]
      rfl
    · intro key
      rw [keys', keys]
      constructor
      · rintro (⟨i, below, taken⟩ | taken)
        · exact ⟨i, by omega, taken⟩
        · exact ⟨turns, by omega, taken⟩
      · intro ⟨i, below, taken⟩
        obtain earlier | rfl := Nat.lt_succ_iff_lt_or_eq.mp below
        · exact .inl ⟨i, earlier, taken⟩
        · exact .inr taken

/-- The merged object has the keys that are taken over from the common part of the arrays. -/
theorem merge_objects (value others : List (OrderedMap Key ν)) :
    ∃ merged, merge (objects value) [.array (objects others)] = .ok (.object false merged) ∧
      ∀ key, key ∈ merged.keys ↔ TakenOver value others key := by
  let listLength := if (objects value).length > (objects others).length then (objects value).length
    else (objects others).length
  obtain ⟨merged, loop, keys⟩ := foldlM_mergeAt_objects value others listLength
  have reaches : (value.zip others).length ≤ listLength := by
    simp only [listLength, objects, List.length_zip, List.length_map]
    split <;> omega
  refine ⟨merged, ?_, ?_⟩
  · rw [merge, firstArgument, List.headD_cons]
    simp only [listLength] at loop
    simp only [loop]
    rfl
  · intro key
    rw [keys]
    constructor
    · intro ⟨i, _, pair, stands, taken⟩
      exact ⟨pair, List.mem_of_getElem? stands, taken⟩
    · intro ⟨pair, member, taken⟩
      obtain ⟨i, stands⟩ := List.mem_iff_getElem?.mp member
      have below := (List.getElem?_eq_some_iff.mp stands).1
      exact ⟨i, by omega, pair, stands, taken⟩

theorem keepsEveryKey_iff (value others : List (OrderedMap Key ν)) :
    KeepsEveryKey value others ↔ SurplusCovered value others := by
  obtain ⟨merged, returns, keys⟩ := merge_objects value others
  have same : KeepsEveryKey value others ↔
      ∀ key, (∃ properties ∈ value ++ others, key ∈ properties.keys) → TakenOver value others key := by
    constructor
    · intro ⟨merged', returns', keeps⟩ key occurs
      rw [returns] at returns'
      cases returns'
      exact (keys key).mp (keeps key occurs)
    · intro taken
      exact ⟨merged, returns, fun key occurs => (keys key).mpr (taken key occurs)⟩
  rw [same]
  constructor
  · intro taken
    refine ⟨?_, ?_⟩
    · intro properties member key inside
      apply taken key
      refine ⟨properties, ?_, inside⟩
      obtain left | right := List.mem_append.mp member
      · exact List.mem_append_left _ (List.mem_of_mem_drop left)
      · exact List.mem_append_right _ (List.mem_of_mem_drop right)
    · intro pair member key inside _
      apply taken key
      exact ⟨pair.2, List.mem_append_right _ (List.of_mem_zip member).2, inside⟩
  · intro covered key ⟨properties, member, inside⟩
    obtain left | right := List.mem_append.mp member
    · obtain ⟨i, stands⟩ := List.mem_iff_getElem?.mp left
      by_cases below : i < others.length
      · refine ⟨(properties, others[i]), List.mem_of_getElem? (i := i) ?_, .inl inside⟩
        rw [List.getElem?_zip_eq_some]
        exact ⟨stands, List.getElem?_eq_getElem below⟩
      · apply covered.beyond properties _ key inside
        apply List.mem_append_left
        apply List.mem_of_getElem? (i := i - others.length)
        rw [List.getElem?_drop, Nat.add_sub_cancel' (by omega), stands]
    · obtain ⟨i, stands⟩ := List.mem_iff_getElem?.mp right
      by_cases below : i < value.length
      · have pair : (value[i], properties) ∈ value.zip others := by
          apply List.mem_of_getElem? (i := i)
          rw [List.getElem?_zip_eq_some]
          exact ⟨List.getElem?_eq_getElem below, stands⟩
        by_cases inheritedName : key.val ∈ objectPrototype
        · exact covered.inherited _ pair key inside inheritedName
        · exact ⟨_, pair, .inr ⟨inside, inheritedName⟩⟩
      · apply covered.beyond properties _ key inside
        apply List.mem_append_right
        apply List.mem_of_getElem? (i := i - value.length)
        rw [List.getElem?_drop, Nat.add_sub_cancel' (by omega), stands]

/-- The set extensions keep their laws for all arrays, and `merge` keeps every key exactly for arrays whose surplus is
covered. -/
theorem setLaws_and_keepsEveryKey_iff {α : Type*} {uniqWith : List α → (α → α → Bool) → List α}
    {deepEqual : α → α → Bool} (documented : UniqWithDocumented uniqWith)
    (equivalence : Distinct.IsEquivalence deepEqual) (value others : List α)
    (rows otherRows : List (OrderedMap Key ν)) :
    KeepsSetLaws uniqWith deepEqual value others ∧
      (KeepsEveryKey rows otherRows ↔ SurplusCovered rows otherRows) :=
  ⟨keepsSetLaws documented equivalence value others, keepsEveryKey_iff rows otherRows⟩

def row (name : String) (allowed : name ≠ "__proto__") (value : Nat) : OrderedMap Key Nat :=
  .set ∅ ⟨name, allowed⟩ value

theorem setLaws_and_keepsEveryKey_numbers :
    KeepsSetLaws Distinct.firstOfEach (fun first second : Nat => first == second) [1, 1, 2] [2, 3] ∧
      (KeepsEveryKey [row "id" (by decide) 1] [row "id" (by decide) 2] ↔
        SurplusCovered [row "id" (by decide) 1] [row "id" (by decide) 2]) :=
  setLaws_and_keepsEveryKey_iff
    (fun items _ equivalence => Distinct.versionOf_firstOfEach equivalence items)
    ⟨fun _ => beq_self_eq_true _, fun alike => beq_iff_eq.mpr (beq_iff_eq.mp alike).symm,
      fun first second => beq_iff_eq.mpr ((beq_iff_eq.mp first).trans (beq_iff_eq.mp second))⟩
    [1, 1, 2] [2, 3] _ _

theorem not_keepsEveryKey_longer : ¬ KeepsEveryKey [] [row "id" (by decide) 1] := by
  intro ⟨merged, returns, keeps⟩
  have empty : merge (objects []) [.array (objects [row "id" (by decide) 1])] = .ok (.object false ∅) := rfl
  rw [empty] at returns
  cases returns
  have lost := keeps ⟨"id", by decide⟩ ⟨row "id" (by decide) 1, by decide, by decide⟩
  cases lost

end Merge

end N8n.Extensions
