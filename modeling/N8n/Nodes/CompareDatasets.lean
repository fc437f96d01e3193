import Mathlib.Logic.Function.Basic
import N8n.Library.Loop
import N8n.Library.Text
import N8n.Nodes.Merge

/-! # Compare Datasets

`findMatches` of `packages/nodes-base/nodes/CompareDatasets/GenericFunctions.ts`
and `fuzzyCompare` of `packages/nodes-base/utils/utilities.ts`.  Two items that
match are compared key by key of the first one only when the comparison is fuzzy,
and the option `mix` writes into the items.
-/

namespace N8n.Nodes.CompareDatasets

open Merge (PairToMatch)

/-! ## Values -/

/-- A number, of `δ`, an object or array, of `ω`, or another value; `none` is `undefined`. -/
inductive Value (δ ω : Type)
  | null
  | boolean (flag : Bool)
  | number (number : δ)
  | string (text : String)
  | object (object : ω)
  deriving DecidableEq

abbrev Json (δ ω : Type) := OrderedMap String (Option (Value δ ω))

/-- What is used of lodash, `jsonParse` and the language.  The name of a field is a path for `get`,
    `set`, `unset` and `omit`; a copy by `cloneDeep` has the value it is made of. -/
structure Runtime (δ ω : Type) where
  isEqual : Option (Value δ ω) → Option (Value δ ω) → Bool
  isEqual_self : ∀ value, isEqual value value = true
  isEqual_comm : ∀ first second, isEqual first second = isEqual second first
  ofFields : Json δ ω → ω
  isEmptyArray : ω → Bool
  jsonParse : String → Option (Value δ ω)
  toLocaleLowerCase : String → String
  trim : String → String
  toString : δ → String
  isZero : δ → Bool
  isOne : δ → Bool
  isNaN : δ → Bool
  get : Option (Value δ ω) → String → Option (Value δ ω)
  set : Json δ ω → String → Option (Value δ ω) → Json δ ω
  unset : Option (Value δ ω) → String → Option (Value δ ω)
  unsetField : Json δ ω → String → Json δ ω
  omitFields : Json δ ω → List String → Json δ ω

variable {δ ω ρ : Type} (runtime : Runtime δ ω)

def read (json : Json δ ω) (key : String) : Option (Value δ ω) := (json.get? key).join

def isFalsy : Option (Value δ ω) → Bool
  | some .null => true
  | some (.string text) => text = ""
  | some (.object object) => runtime.isEmptyArray object
  | _ => false

def typeof : Option (Value δ ω) → String
  | none => "undefined"
  | some (.boolean _) => "boolean"
  | some (.number _) => "number"
  | some (.string _) => "string"
  | some .null | some (.object _) => "object"

def isNull : Option (Value δ ω) → Bool
  | some .null => true
  | _ => false

def parseStringAndCompareToObject (text : String) (object : ω) : Bool :=
  match runtime.jsonParse text with
  | none => false
  | some parsed => runtime.isEqual (some parsed) (some (.object object))

/-- The last comparisons of booleans, with texts and with numbers. -/
def sameBoolean (flag : Bool) : Value δ ω → Bool
  | .string text =>
    runtime.toLocaleLowerCase text = (if flag then "true" else "false") ∨ text = (if flag then "1" else "0")
  | .number number => if flag then runtime.isOne number else runtime.isZero number
  | _ => false

def isNullOrZero : Option (Value δ ω) → Bool
  | some .null => true
  | some (.number number) => runtime.isZero number
  | some (.string text) => text = "0"
  | _ => false

/-- Versions are in tenths. -/
def fuzzyCompare (useFuzzyCompare : Bool) (compareVersion : Nat) (item1 item2 : Option (Value δ ω)) : Bool :=
  if !useFuzzyCompare then runtime.isEqual item1 item2
  else if !isNull item1 && !isNull item2 && typeof item1 == typeof item2 then runtime.isEqual item1 item2
  else if 20 ≤ compareVersion && isNull item1 && isNullOrZero runtime item2 then true
  else if 20 ≤ compareVersion && isNull item2 && isNullOrZero runtime item1 then true
  else if isFalsy runtime item1 && isFalsy runtime item2 then true
  else if isFalsy runtime item1 && item2.isNone then true
  else if item1.isNone && isFalsy runtime item2 then true
  else
    match item1, item2 with
    | some (.number number), some (.string text) | some (.string text), some (.number number) =>
      runtime.toString number == text
    | some (.object object), some (.string text) | some (.string text), some (.object object) =>
      parseStringAndCompareToObject runtime text object
    | some (.boolean flag), some other | some other, some (.boolean flag) =>
      sameBoolean runtime flag other || runtime.isEqual item1 item2
    | _, _ => runtime.isEqual item1 item2

theorem fuzzyCompare_comm (useFuzzyCompare : Bool) (compareVersion : Nat) (item1 item2 : Option (Value δ ω)) :
    fuzzyCompare runtime useFuzzyCompare compareVersion item1 item2 =
      fuzzyCompare runtime useFuzzyCompare compareVersion item2 item1 := by
  have comm := runtime.isEqual_comm item1 item2
  cases useFuzzyCompare with
  | false => simpa [fuzzyCompare] using comm
  | true =>
    rcases item1 with _ | (_ | _ | _ | _ | _) <;> rcases item2 with _ | (_ | _ | _ | _ | _) <;>
      simp [fuzzyCompare, isNull, typeof, isNullOrZero, isFalsy, sameBoolean, comm, Bool.and_comm]

theorem fuzzyCompare_self (useFuzzyCompare : Bool) (compareVersion : Nat) (item : Option (Value δ ω)) :
    fuzzyCompare runtime useFuzzyCompare compareVersion item item = true := by
  have same := runtime.isEqual_self item
  rcases item with _ | (_ | _ | _ | _ | _) <;> simp [fuzzyCompare, isNull, isFalsy, same]

/-! ## Comparing the items that match -/

structure Options where
  fuzzyCompare : Bool := false
  nodeVersion : Nat := 20
  disableDotNotation : Bool := false
  multipleMatches : Option String := some "all"
  skipFields : String := ""
  resolve : Option String := none
  preferWhenMix : String := "input1"
  exceptWhenMix : String := ""

variable (options : Options)

def isEntriesEqual : Option (Value δ ω) → Option (Value δ ω) → Bool :=
  fuzzyCompare runtime options.fuzzyCompare options.nodeVersion

def fieldsOf (text : String) : List String :=
  (text.toList.splitOn ',').map fun field => runtime.trim (String.ofList field)

def skipFields : List String := fieldsOf runtime options.skipFields

def hasDot (field : String) : Bool := field.toList.contains '.'

def truthy : Option (Value δ ω) → Bool
  | none | some .null => false
  | some (.boolean flag) => flag
  | some (.number number) => !runtime.isZero number && !runtime.isNaN number
  | some (.string text) => text ≠ ""
  | some (.object _) => true

def compared (json : Json δ ω) : Json δ ω :=
  if options.disableDotNotation || !(skipFields runtime options).any hasDot then
    runtime.omitFields json (skipFields runtime options)
  else (skipFields runtime options).foldl runtime.unsetField json

def isItemsEqual (json1 json2 : Json δ ω) : Bool :=
  let entryFromInput1 := compared runtime options json1
  let entryFromInput2 := compared runtime options json2
  if options.fuzzyCompare then
    entryFromInput1.keys.all fun key =>
      isEntriesEqual runtime options (read entryFromInput1 key) (read entryFromInput2 key)
  else
    isEntriesEqual runtime options (some (.object (runtime.ofFields entryFromInput1)))
      (some (.object (runtime.ofFields entryFromInput2)))

theorem isItemsEqual_self (json : Json δ ω) : isItemsEqual runtime options json json = true := by
  simp [isItemsEqual, isEntriesEqual, fuzzyCompare_self]

variable (json1 json2 : Json δ ω)

/-- The items are equal, or where the comparison is fuzzy, equal in the keys that both have. -/
def AgreeInShared : Prop :=
  let json1 := compared runtime options json1
  let json2 := compared runtime options json2
  if options.fuzzyCompare then ∀ key ∈ json1.keys, key ∈ json2.keys →
    isEntriesEqual runtime options (read json1 key) (read json2 key) = true
  else runtime.isEqual (some (.object (runtime.ofFields json1))) (some (.object (runtime.ofFields json2))) = true

/-- Where the comparison is fuzzy, what only the first item has is as good as missing. -/
def AddsNothing : Prop :=
  let json1 := compared runtime options json1
  options.fuzzyCompare = true → ∀ key ∈ json1.keys, key ∉ (compared runtime options json2).keys →
    isEntriesEqual runtime options (read json1 key) none = true

theorem isItemsEqual_iff : isItemsEqual runtime options json1 json2 = true ↔
    AgreeInShared runtime options json1 json2 ∧ AddsNothing runtime options json1 json2 := by
  have missing : ∀ {json : Json δ ω} {key : String}, key ∉ json.keys → read json key = none := by
    intro json key absent
    rw [read, OrderedMap.get?_eq_none.mpr absent]
    rfl
  rw [isItemsEqual, AgreeInShared, AddsNothing]
  cases fuzzy : options.fuzzyCompare with
  | false => simp [isEntriesEqual, fuzzyCompare, fuzzy]
  | true =>
    simp only [if_true, List.all_eq_true]
    grind

theorem agreeInShared_comm : AgreeInShared runtime options json1 json2 ↔ AgreeInShared runtime options json2 json1 := by
  rw [AgreeInShared, AgreeInShared]
  split
  · constructor <;> intro agree key first second <;> rw [isEntriesEqual, fuzzyCompare_comm] <;>
      exact agree key second first
  · rw [runtime.isEqual_comm]

def processNullishValue (value : Option (Value δ ω)) : Option (Value δ ω) :=
  if 20 ≤ options.nodeVersion then some (value.getD .null)
  else if truthy runtime value then value else some .null

/-- The turn of a key for a `resolve` that prefers no input, on what is different and what is skipped. -/
def compareKey (item1 item2 : Json δ ω) (state : Json δ ω × Json δ ω) (turn : String × Nat) :
    Except String (Json δ ω × Json δ ω) :=
  let (different, skipped) := state
  let (key, i) := turn
  let input1 := processNullishValue runtime options (read item1 key)
  let input2 := processNullishValue runtime options (read item2 key)
  let both := fun first second : Option (Value δ ω) =>
    let names := if 20 ≤ options.nodeVersion then ("inputA", "inputB") else ("input1", "input2")
    some (.object (runtime.ofFields (((∅ : Json δ ω).set names.1 first).set names.2 second)))
  if 21 ≤ options.nodeVersion ∧ !options.disableDotNotation ∧ key ∉ skipFields runtime options then
    let nested := ((skipFields runtime options).filter fun field =>
      key.toList.isPrefixOf field.toList && hasDot field).map
        fun field => String.ofList (Text.replaceFirst (key ++ ".").toList [] field.toList)
    if !nested.isEmpty && (typeof input1 != "object" || typeof input2 != "object") then
      .error s!"The field '{key}' in item {i} is not an object. It is not possible to use dot notation."
    else
      let take := fun input => nested.foldl (fun (json, input) field =>
        (runtime.set json field (runtime.get input field), runtime.unset input field)) ((∅ : Json δ ω), input)
      let asValue := fun json => some (.object (runtime.ofFields json))
      let skipped := if nested.isEmpty then skipped
        else skipped.set key (both (asValue (take input1).1) (asValue (take input2).1))
      .ok (different.set key (both (take input1).2 (take input2).2), skipped)
  else if key ∈ skipFields runtime options then .ok (different, skipped.set key (both input1 input2))
  else .ok (different.set key (both input1 input2), skipped)

def compareItems (fieldsToMatch : List PairToMatch) (item1 item2 : Json δ ω) : Except String (Json δ ω) := do
  let keys := fieldsToMatch.foldl (fun keys field => keys.set field.field1 (read item1 field.field1)) (∅ : Json δ ω)
  let allUniqueKeys := item1.keys ++ item2.keys.filter (· ∉ item1.keys)
  let keysToCompare := if options.fuzzyCompare ∧ 21 ≤ options.nodeVersion then allUniqueKeys
    else item1.keys.filter (· ∈ item2.keys)
  let sameKeys := keysToCompare.filter fun key => isEntriesEqual runtime options (read item1 key) (read item2 key)
  let same := sameKeys.foldl (fun same key => same.set key (read item1 key)) (∅ : Json δ ω)
  let differentKeys := allUniqueKeys.filter (· ∉ sameKeys)
  let (different, skipped) ← differentKeys.zipIdx.foldlM (compareKey runtime options item1 item2) (∅, ∅)
  let asValue := fun json => some (.object (runtime.ofFields json))
  let json := (((∅ : Json δ ω).set "keys" (asValue keys)).set "same" (asValue same)).set "different" (asValue different)
  return if skipped.keys.isEmpty then json else json.set "skipped" (asValue skipped)

/-! ## The items in the memory -/

/-- The `json` of the items. -/
abbrev Heap (δ ω ρ : Type) := ρ → Json δ ω

variable (heap : Heap δ ω ρ)

def reading : Merge.Reading ρ (Value δ ω) where
  own entry key := read (heap entry) key
  get entry key := runtime.get (some (.object (runtime.ofFields (heap entry)))) key
  isEntriesEqual := isEntriesEqual runtime options

local instance lawfulBEqOption : LawfulBEq (Option String) := inferInstance

def mergeOptions : Merge.MatchFieldsOptions where
  disableDotNotation := options.disableDotNotation
  multipleMatches := if options.multipleMatches ∈ [none, some ""] then some "first" else options.multipleMatches

/-- The items match: their fields agree, and those of the first are there. -/
def isPair (fieldsToMatch : List PairToMatch) : ρ → ρ → Bool :=
  Merge.isPair (reading runtime options heap) (mergeOptions options) (Merge.counting fieldsToMatch)

def pairsOf (fields : List String) : List PairToMatch := fields.map fun field => ⟨field, field⟩

def valueOf (item : ρ) (field : String) : Option (Value δ ω) :=
  Merge.fieldValue (reading runtime options heap) (mergeOptions options) item field

/-- The fields to match are there, `__proto__` apart, which is never looked up. -/
def HasFields (fields : List String) (item : ρ) : Prop :=
  ∀ both ∈ Merge.counting (pairsOf fields), (valueOf runtime options heap item both.field1).isSome = true

def AgreeInFields (fields : List String) (item1 item2 : ρ) : Prop :=
  ∀ both ∈ Merge.counting (pairsOf fields), isEntriesEqual runtime options
    (valueOf runtime options heap item1 both.field1) (valueOf runtime options heap item2 both.field2) = true

theorem isPair_iff (fields : List String) (item1 item2 : ρ) :
    isPair runtime options heap (pairsOf fields) item1 item2 = true ↔
      HasFields runtime options heap fields item1 ∧ AgreeInFields runtime options heap fields item1 item2 := by
  simp only [isPair, Merge.isPair, List.all_eq_true, Bool.and_eq_true, forall_and, HasFields, AgreeInFields]
  rfl

theorem agreeInFields_comm (fields : List String) (item1 item2 : ρ) :
    AgreeInFields runtime options heap fields item1 item2 ↔ AgreeInFields runtime options heap fields item2 item1 := by
  have same : ∀ both ∈ Merge.counting (pairsOf fields), both.field2 = both.field1 := by
    intro both member
    obtain ⟨field, -, rfl⟩ := List.mem_map.mp (List.mem_of_mem_filter member)
    rfl
  refine forall₂_congr fun both member => ?_
  rw [same both member, isEntriesEqual, fuzzyCompare_comm]

variable [DecidableEq ρ]

def exceptFields : List String :=
  if options.exceptWhenMix = "" then [] else fieldsOf runtime options.exceptWhenMix

/-- What a field is set to in the end, from the item of the other input. -/
def written (json : Json δ ω) (field : String) : Option (Value δ ω) :=
  if options.disableDotNotation then read json field
  else
    let value := runtime.get (some (.object (runtime.ofFields json))) field
    if truthy runtime value then value else some .null

def combineField (entry «match» : ρ) (heap : Heap δ ω ρ) (field : String) : Heap δ ω ρ :=
  let assign := fun (heap : Heap δ ω ρ) value => Function.update heap entry ((heap entry).set field value)
  let heap := assign heap (read (heap «match») field)
  assign heap (written runtime options (heap «match») field)

/-- The entry that is written to, and its match. -/
def preferred (item1 item2 : ρ) : ρ × ρ := if options.preferWhenMix = "input1" then (item1, item2) else (item2, item1)

/-- The item that is returned, and the memory. -/
def combineItems (heap : Heap δ ω ρ) (item1 item2 : ρ) : ρ × Heap δ ω ρ :=
  let (entry, «match») := preferred options item1 item2
  (entry, (exceptFields runtime options).foldl (combineField runtime options entry «match») heap)

theorem foldl_combineField {entry other : ρ} (different : other ≠ entry) (fields : List String) (json : Json δ ω) :
    fields.foldl (combineField runtime options entry other) (Function.update heap entry json) =
      Function.update heap entry
        (fields.foldl (fun json field => json.set field (written runtime options (heap other) field)) json) := by
  induction fields generalizing json with
  | nil => rfl
  | cons field rest ih =>
    have turn : combineField runtime options entry other (Function.update heap entry json) field =
        Function.update heap entry (json.set field (written runtime options (heap other) field)) := by
      simp [combineField, different]
    rw [List.foldl_cons, turn, ih, List.foldl_cons]

theorem combineItems_eq_self_iff {item1 item2 : ρ} (different : item1 ≠ item2) :
    (combineItems runtime options heap item1 item2).2 = heap ↔
      ∀ field ∈ exceptFields runtime options, (heap (preferred options item1 item2).1).get? field =
        some (written runtime options (heap (preferred options item1 item2).2) field) := by
  have apart : (preferred options item1 item2).2 ≠ (preferred options item1 item2).1 := by
    rw [preferred]
    split
    · exact different.symm
    · exact different
  rw [combineItems]
  generalize preferred options item1 item2 = both at apart ⊢
  obtain ⟨entry, other⟩ := both
  dsimp only at apart ⊢
  have writes := foldl_combineField runtime options heap apart (exceptFields runtime options) (heap entry)
  rw [Function.update_eq_self] at writes
  rw [writes, Function.update_eq_self_iff, OrderedMap.foldl_set_eq_self_iff]

/-- An item, or what `compareItems` makes. -/
inductive Output (δ ω ρ : Type)
  | item (item : ρ)
  | comparison (json : Json δ ω)

/-- A comparison of two items that match: what it found, and the memory after it. -/
structure Comparison (δ ω ρ : Type) where
  entry : ρ
  «match» : ρ
  isItemsEqual : Bool
  heap : Heap δ ω ρ

structure State (δ ω ρ : Type) where
  heap : Heap δ ω ρ
  entryCopy : Option ρ := none
  same : List ρ := []
  different : List (Output δ ω ρ) := []
  log : List (Comparison δ ω ρ) := []

def differentFrom (fieldsToMatch : List PairToMatch) (heap : Heap δ ω ρ) (entry «match» : ρ) :
    Except String (Output δ ω ρ × Heap δ ω ρ) :=
  if options.resolve = some "preferInput1" then .ok (.item entry, heap)
  else if options.resolve = some "preferInput2" then .ok (.item «match», heap)
  else if options.resolve = some "mix" then
    let (item, heap) := combineItems runtime options heap entry «match»
    .ok (.item item, heap)
  else do return (.comparison (← compareItems runtime options fieldsToMatch (heap entry) (heap «match»)), heap)

def compareMatch (fieldsToMatch : List PairToMatch) (entry : ρ) (state : State δ ω ρ) («match» : ρ) :
    Except String (State δ ω ρ) :=
  if isItemsEqual runtime options (state.heap entry) (state.heap «match») then
    let copy := if options.fuzzyCompare ∧ options.resolve = some "preferInput2" then «match» else entry
    .ok { state with
      entryCopy := state.entryCopy.or (some copy)
      log := state.log ++ [⟨entry, «match», true, state.heap⟩] }
  else do
    let (output, heap) ← differentFrom runtime options fieldsToMatch state.heap entry «match»
    return { state with
      heap, different := state.different ++ [output], log := state.log ++ [⟨entry, «match», false, heap⟩] }

/-- An item object is not empty, so `isEmpty` asks only whether there is a copy. -/
def compareEntry (fieldsToMatch : List PairToMatch) (state : State δ ω ρ) (entryMatches : Merge.EntryMatches ρ) :
    Except String (State δ ω ρ) := do
  let state ← entryMatches.foundMatches.foldlM (compareMatch runtime options fieldsToMatch entryMatches.entry)
    { state with entryCopy := none }
  return { state with same := state.same ++ state.entryCopy.toList }

/-- The lists that are returned, and the comparisons that were made. -/
structure Result (δ ω ρ : Type) where
  unmatched1 : List ρ
  same : List ρ
  different : List (Output δ ω ρ)
  unmatched2 : List ρ
  log : List (Comparison δ ω ρ)

/-- The loop over the entries and its searches are those of Merge, which has them once more. -/
def findMatches (heap : Heap δ ω ρ) (input1 input2 : List ρ) (fieldsToMatch : List PairToMatch) :
    Except String (Result δ ω ρ) :=
  if options.disableDotNotation && (skipFields runtime options).any hasDot then
    let fieldToSkip := (skipFields runtime options).find? hasDot
    .error s!"Dot notation is disabled, but field to skip comparing '{fieldToSkip.getD default}' contains dot"
  else do
    let filteredData := Merge.findMatches (reading runtime options heap)
      (mergeOptions options) input1 input2 fieldsToMatch
    let state ← filteredData.matched.foldlM (compareEntry runtime options fieldsToMatch) { heap }
    return ⟨filteredData.unmatched1, state.same, state.different, filteredData.unmatched2, state.log⟩

/-! ## What the comparisons do -/

/-- The items are equal, or nothing is written, or each value is there before it is written. -/
def Keeps (heap : Heap δ ω ρ) (item1 item2 : ρ) : Prop :=
  isItemsEqual runtime options (heap item1) (heap item2) = false → options.resolve = some "mix" →
    ∀ field ∈ exceptFields runtime options, (heap (preferred options item1 item2).1).get? field =
      some (written runtime options (heap (preferred options item1 item2).2) field)

def after (heap : Heap δ ω ρ) (entry «match» : ρ) : Heap δ ω ρ :=
  if isItemsEqual runtime options (heap entry) (heap «match») = false ∧ options.resolve = some "mix" then
    (combineItems runtime options heap entry «match»).2
  else heap

variable {runtime options} {fieldsToMatch : List PairToMatch}

theorem after_eq_self_iff (item1 item2 : ρ) :
    after runtime options heap item1 item2 = heap ↔ Keeps runtime options heap item1 item2 := by
  rw [after, Keeps]
  by_cases combines : isItemsEqual runtime options (heap item1) (heap item2) = false ∧ options.resolve = some "mix"
  · have different : item1 ≠ item2 := by
      rintro rfl
      simp [isItemsEqual_self] at combines
    rw [if_pos combines, combineItems_eq_self_iff runtime options heap different]
    simp [combines]
  · rw [if_neg combines]
    simp_all

theorem compareMatch_inv {state next : State δ ω ρ} {entry other : ρ}
    (returns : compareMatch runtime options fieldsToMatch entry state other = .ok next) :
    next.heap = after runtime options state.heap entry other ∧
      next.log = state.log ++
        [⟨entry, other, isItemsEqual runtime options (state.heap entry) (state.heap other), next.heap⟩] := by
  rw [compareMatch] at returns
  cases same : isItemsEqual runtime options (state.heap entry) (state.heap other) with
  | true =>
    rw [if_pos same] at returns
    obtain rfl := Except.ok.inj returns
    simp [after, same]
  | false =>
    rw [if_neg (by simp [same])] at returns
    obtain ⟨⟨output, heap⟩, differs, returns⟩ := Loop.bind_inv returns
    obtain rfl := Except.ok.inj returns
    have isAfter : heap = after runtime options state.heap entry other := by
      rw [differentFrom] at differs
      split at differs
      next prefers =>
        obtain ⟨-, rfl⟩ := by simpa using differs
        simp [after, prefers]
      next =>
        split at differs
        next prefers =>
          obtain ⟨-, rfl⟩ := by simpa using differs
          simp [after, prefers]
        next =>
          split at differs
          next mix =>
            obtain ⟨-, rfl⟩ := by simpa using differs
            simp [after, same, mix]
          next noMix =>
            obtain ⟨json, _, differs⟩ := Loop.bind_inv differs
            obtain ⟨-, rfl⟩ := by simpa [pure, Except.pure] using differs
            simp [after, noMix]
    exact ⟨isAfter, by simp⟩

/-- What the comparisons so far tell: while the memory stays as it was, they are those of its items, and it stays
    so exactly while each of them leaves it. -/
structure Compared (runtime : Runtime δ ω) (options : Options) (heap : Heap δ ω ρ) (done : List (ρ × ρ))
  (state : State δ ω ρ) : Prop where
  pairs : state.log.map (fun comparison => (comparison.entry, comparison.match)) = done
  steady : (∀ comparison ∈ state.log, comparison.heap = heap) → state.heap = heap ∧
    (∀ comparison ∈ state.log,
      comparison.isItemsEqual = isItemsEqual runtime options (heap comparison.entry) (heap comparison.match)) ∧
    ∀ pair ∈ done, after runtime options heap pair.1 pair.2 = heap
  leaves : (∀ pair ∈ done, after runtime options heap pair.1 pair.2 = heap) →
    ∀ comparison ∈ state.log, comparison.heap = heap

theorem Compared.compareMatch {heap : Heap δ ω ρ} {done : List (ρ × ρ)} {state next : State δ ω ρ} {entry other : ρ}
    (compared : Compared runtime options heap done state)
    (returns : compareMatch runtime options fieldsToMatch entry state other = .ok next) :
    Compared runtime options heap (done ++ [(entry, other)]) next := by
  obtain ⟨heapAfter, log⟩ := compareMatch_inv returns
  refine ⟨by simp [log, compared.pairs], fun steady => ?_, fun leaves => ?_⟩
  · rw [log, List.forall_mem_append, List.forall_mem_singleton] at steady
    obtain ⟨same, equal, left⟩ := compared.steady steady.1
    rw [same] at heapAfter log
    refine ⟨steady.2, ?_, ?_⟩
    · rw [log, List.forall_mem_append, List.forall_mem_singleton]
      exact ⟨equal, rfl⟩
    · rw [List.forall_mem_append, List.forall_mem_singleton]
      exact ⟨left, heapAfter.symm.trans steady.2⟩
  · rw [List.forall_mem_append, List.forall_mem_singleton] at leaves
    have steady := compared.leaves leaves.1
    rw [log, List.forall_mem_append, List.forall_mem_singleton]
    refine ⟨steady, ?_⟩
    rw [heapAfter, (compared.steady steady).1]
    exact leaves.2

theorem compared_foldlM {heap : Heap δ ω ρ} {matched : List (Merge.EntryMatches ρ)} {final : State δ ω ρ}
    (returns : matched.foldlM (compareEntry runtime options fieldsToMatch) { heap } = .ok final) :
    Compared runtime options heap (Merge.matchedPairs matched) final := by
  have start : Compared runtime options heap [] { heap } := ⟨rfl, by simp, by simp⟩
  refine Loop.foldlM_accumulates (Compared runtime options heap) _
    (fun entryMatches _ done state next compared turn => ?_) start returns
  obtain ⟨between, turns, returned⟩ := Loop.bind_inv turn
  obtain rfl := Except.ok.inj returned
  have copied : Compared runtime options heap done { state with entryCopy := none } :=
    ⟨compared.pairs, compared.steady, compared.leaves⟩
  have later := Loop.foldlM_accumulates (Compared runtime options heap) (fun other => [(entryMatches.entry, other)])
    (fun _ _ _ _ _ compared turn => compared.compareMatch turn) copied turns
  rw [← List.map_eq_flatMap] at later
  exact ⟨later.pairs, later.steady, later.leaves⟩

/-! ## What a call returns -/

/-- The pair of items was compared and found to be the same. -/
def Result.ClassifiesSame (result : Result δ ω ρ) (item1 item2 : ρ) : Prop :=
  ∃ comparison ∈ result.log, (comparison.entry, comparison.match, comparison.isItemsEqual) = (item1, item2, true)

variable {heap : Heap δ ω ρ} {input1 input2 : List ρ} {result : Result δ ω ρ}

theorem findMatches_inv (all : options.multipleMatches = some "all")
    (returns : findMatches runtime options heap input1 input2 fieldsToMatch = .ok result) :
    let pair := isPair runtime options heap fieldsToMatch
    result.unmatched1 = (input1.filter fun item1 => !input2.any fun item2 => pair item1 item2) ∧
      result.unmatched2 = (input2.filter fun item2 => !input1.any fun item1 => pair item1 item2) ∧
      ((∀ comparison ∈ result.log, comparison.heap = heap) ↔ ∀ item1 ∈ input1, ∀ item2 ∈ input2,
        pair item1 item2 = true → Keeps runtime options heap item1 item2) ∧
      ((∀ comparison ∈ result.log, comparison.heap = heap) → ∀ item1 item2, result.ClassifiesSame item1 item2 ↔
        item1 ∈ input1 ∧ item2 ∈ input2 ∧ pair item1 item2 = true ∧
          isItemsEqual runtime options (heap item1) (heap item2) = true) := by
  intro pair
  have allMatches : (mergeOptions options).allMatches = true := by
    simp [mergeOptions, Merge.MatchFieldsOptions.allMatches, all]
  rw [findMatches] at returns
  split at returns
  next => cases returns
  next =>
    obtain ⟨state, compares, returned⟩ := Loop.bind_inv returns
    obtain rfl := Except.ok.inj returned
    have filtered := @Merge.findMatches_eq _ _ (reading runtime options heap) (mergeOptions options) fieldsToMatch
      input1 input2
    have compared := compared_foldlM compares
    rw [filtered] at compared ⊢
    have isMatched : ∀ item1 item2, (item1, item2) ∈ Merge.matchedPairs (Merge.filteredBy (mergeOptions options) input1
        input2 fun item1 => Merge.foundedMatches (mergeOptions options) input2 (pair item1)).matched ↔
          item1 ∈ input1 ∧ item2 ∈ input2 ∧ pair item1 item2 = true := by
      intro item1 item2
      rw [Merge.mem_matchedPairs, Merge.map_fst_foundedMatches, if_pos allMatches, List.mem_filter]
    refine ⟨?_, Merge.unmatched2_filteredBy pair allMatches, ?_, fun steady item1 item2 => ?_⟩
    · refine List.filter_congr fun item1 _ => ?_
      rw [← @List.isEmpty_map _ _ _ Prod.fst, Merge.map_fst_foundedMatches, if_pos allMatches, Bool.eq_iff_iff]
      simp [pair, isPair]
    · refine ⟨fun steady item1 isFirst item2 isSecond isPair => ?_, fun leaves => compared.leaves fun both inside => ?_⟩
      · exact (after_eq_self_iff heap _ _).mp
          ((compared.steady steady).2.2 _ ((isMatched item1 item2).mpr ⟨isFirst, isSecond, isPair⟩))
      · obtain ⟨isFirst, isSecond, isPair⟩ := (isMatched both.1 both.2).mp inside
        exact (after_eq_self_iff heap _ _).mpr (leaves _ isFirst _ isSecond isPair)
    · have equal := (compared.steady steady).2.1
      have placed : (item1, item2) ∈ state.log.map (fun comparison => (comparison.entry, comparison.match)) ↔ _ :=
        compared.pairs ▸ isMatched item1 item2
      rw [List.mem_map] at placed
      constructor
      · rintro ⟨comparison, inside, isComparison⟩
        obtain ⟨rfl, rfl, isEqual⟩ := by simpa using isComparison
        obtain ⟨isFirst, isSecond, isPair⟩ := placed.mp ⟨comparison, inside, rfl⟩
        exact ⟨isFirst, isSecond, isPair, (equal comparison inside).symm.trans isEqual⟩
      · rintro ⟨isFirst, isSecond, isPair, isEqual⟩
        obtain ⟨comparison, inside, isComparison⟩ := placed.mpr ⟨isFirst, isSecond, isPair⟩
        obtain ⟨rfl, rfl⟩ := Prod.mk.inj isComparison
        exact ⟨comparison, inside, by rw [equal comparison inside, isEqual]⟩

/-! ## Two calls -/

/-- No comparison of the two calls changes an item, they classify the same pairs as same, and the items
    without a match are exchanged. -/
structure Symmetric (heap : Heap δ ω ρ) (first second : Result δ ω ρ) : Prop where
  unchanged : ∀ result ∈ [first, second], ∀ comparison ∈ result.log, comparison.heap = heap
  same : ∀ item1 item2, first.ClassifiesSame item1 item2 ↔ second.ClassifiesSame item2 item1
  exchanged : first.unmatched1 = second.unmatched2 ∧ first.unmatched2 = second.unmatched1

/-- The condition on the items, from what they have and in which fields they agree.  Of items that agree in
    the fields to match and in the keys that both have, the one has these fields and adds nothing just when the
    other does; an item has a partner by its own fields just when it has one by those of the partner; and of items
    that match but differ, none has a field written that it does not have with that value. -/
structure Comparable (runtime : Runtime δ ω) (options : Options) (heap : Heap δ ω ρ) (has : ρ → Prop)
    (agree : ρ → ρ → Prop) (input1 input2 : List ρ) : Prop where
  same : ∀ item1 ∈ input1, ∀ item2 ∈ input2, agree item1 item2 →
    AgreeInShared runtime options (heap item1) (heap item2) →
      (has item1 ∧ AddsNothing runtime options (heap item1) (heap item2) ↔
        has item2 ∧ AddsNothing runtime options (heap item2) (heap item1))
  partner1 : ∀ item1 ∈ input1,
    (∃ item2 ∈ input2, has item1 ∧ agree item1 item2) ↔ ∃ item2 ∈ input2, has item2 ∧ agree item1 item2
  partner2 : ∀ item2 ∈ input2,
    (∃ item1 ∈ input1, has item1 ∧ agree item1 item2) ↔ ∃ item1 ∈ input1, has item2 ∧ agree item1 item2
  keeps : ∀ item1 ∈ input1, ∀ item2 ∈ input2, agree item1 item2 →
    (has item1 → Keeps runtime options heap item1 item2) ∧ (has item2 → Keeps runtime options heap item2 item1)

theorem filter_unmatched_iff {α β : Type} (items : List α) (others : List β) {first second : α → β → Bool}
    {isFirst isSecond : α → β → Prop} (first_iff : ∀ item other, first item other = true ↔ isFirst item other)
    (second_iff : ∀ item other, second item other = true ↔ isSecond item other) :
    (items.filter fun item => !others.any (first item)) = (items.filter fun item => !others.any (second item)) ↔
      ∀ item ∈ items, (∃ other ∈ others, isFirst item other) ↔ ∃ other ∈ others, isSecond item other := by
  have matched : ∀ item, (others.any (first item) = others.any (second item) ↔
      ((∃ other ∈ others, isFirst item other) ↔ ∃ other ∈ others, isSecond item other)) := by
    intro item
    rw [Bool.eq_iff_iff]
    simp only [List.any_eq_true, first_iff, second_iff]
  refine ⟨fun same item member => (matched item).mp ?_,
    fun same => List.filter_congr fun item member => by rw [(matched item).mpr (same item member)]⟩
  have inside : item ∈ items.filter (fun item => !others.any (first item)) ↔
      item ∈ items.filter fun item => !others.any (second item) := by rw [same]
  simp only [List.mem_filter, member, true_and, Bool.not_eq_true', ← Bool.not_eq_true, not_iff_not] at inside
  exact Bool.eq_iff_iff.mpr inside

/-- Two calls for the same fields of both inputs, which compare all matches. -/
theorem symmetric_iff (runtime : Runtime δ ω) (options : Options) (heap : Heap δ ω ρ) (input1 input2 : List ρ)
    (fields : List String) {first second : Result δ ω ρ} (all : options.multipleMatches = some "all")
    (returns1 : findMatches runtime options heap input1 input2 (pairsOf fields) = .ok first)
    (returns2 : findMatches runtime options heap input2 input1 (pairsOf fields) = .ok second) :
    Symmetric heap first second ↔
      Comparable runtime options heap (HasFields runtime options heap fields)
        (AgreeInFields runtime options heap fields) input1 input2 := by
  obtain ⟨unmatched11, unmatched12, steady1, same1⟩ := findMatches_inv all returns1
  obtain ⟨unmatched21, unmatched22, steady2, same2⟩ := findMatches_inv all returns2
  have isPair1 := isPair_iff runtime options heap fields
  have isPair2 := fun item1 item2 => (isPair1 item2 item1).trans
    (and_congr_right fun _ => agreeInFields_comm runtime options heap fields item2 item1)
  have exchanged1 := filter_unmatched_iff input1 input2 isPair1 isPair2
  have exchanged2 := filter_unmatched_iff input2 input1 (fun item2 item1 => isPair1 item1 item2)
    fun item2 item1 => isPair2 item1 item2
  rw [← unmatched11, ← unmatched22] at exchanged1
  rw [← unmatched12, ← unmatched21] at exchanged2
  constructor
  · intro symmetric
    have still1 := symmetric.unchanged first (by simp)
    have still2 := symmetric.unchanged second (by simp)
    refine ⟨fun item1 inside1 item2 inside2 agree shared => ?_, exchanged1.mp symmetric.exchanged.1,
      exchanged2.mp symmetric.exchanged.2, fun item1 inside1 item2 inside2 agree => ⟨fun has => ?_, fun has => ?_⟩⟩
    · have same := symmetric.same item1 item2
      rw [same1 still1, same2 still2, isPair1, isPair2, isItemsEqual_iff, isItemsEqual_iff,
        agreeInShared_comm _ _ (heap item2)] at same
      simpa [inside1, inside2, agree, shared] using same
    · exact steady1.mp still1 item1 inside1 item2 inside2 ((isPair1 _ _).mpr ⟨has, agree⟩)
    · exact steady2.mp still2 item2 inside2 item1 inside1 ((isPair2 _ _).mpr ⟨has, agree⟩)
  · intro comparable
    have still1 := steady1.mpr fun item1 inside1 item2 inside2 pair =>
      (comparable.keeps item1 inside1 item2 inside2 ((isPair1 _ _).mp pair).2).1 ((isPair1 _ _).mp pair).1
    have still2 := steady2.mpr fun item2 inside2 item1 inside1 pair =>
      (comparable.keeps item1 inside1 item2 inside2 ((isPair2 _ _).mp pair).2).2 ((isPair2 _ _).mp pair).1
    refine ⟨by simp only [List.forall_mem_cons]; exact ⟨still1, still2, by simp⟩, fun item1 item2 => ?_,
      exchanged1.mpr comparable.partner1, exchanged2.mpr comparable.partner2⟩
    rw [same1 still1, same2 still2, isPair1, isPair2, isItemsEqual_iff, isItemsEqual_iff,
      agreeInShared_comm _ _ (heap item2)]
    have same := comparable.same item1
    grind

/-! ### A key that one of two items has -/

namespace Added

/-- Values are compared as they are, and no field to skip is found in the items. -/
def numbers : Runtime Int Unit where
  isEqual first second := first == second
  isEqual_self _ := by simp
  isEqual_comm _ _ := Bool.beq_comm
  ofFields _ := ()
  isEmptyArray _ := false
  jsonParse _ := none
  toLocaleLowerCase text := text
  trim text := text
  toString := ToString.toString
  isZero number := number == 0
  isOne number := number == 1
  isNaN _ := false
  get _ _ := none
  set json _ _ := json
  unset value _ := value
  unsetField json _ := json
  omitFields json _ := json

/-- The item 0 has an id, the item 1 has one more field. -/
def items : Heap Int Unit Nat := fun item =>
  let json := (∅ : Json Int Unit).set "id" (some (.number 1))
  if item = 0 then json else json.set "x" (some (.number 2))

def fuzzy : Options := { fuzzyCompare := true, disableDotNotation := true, resolve := some "preferInput1" }

theorem returns : ∀ flag : Bool, ∃ result,
    findMatches numbers fuzzy items [if flag then 0 else 1] [if flag then 1 else 0] (pairsOf ["id"]) = .ok result ∧
      result.log.map (fun comparison => (comparison.entry, comparison.match, comparison.isItemsEqual)) =
        [(if flag then 0 else 1, if flag then 1 else 0, flag)] := by
  intro flag
  have logs : (findMatches numbers fuzzy items [if flag then 0 else 1] [if flag then 1 else 0]
    (pairsOf ["id"])).toOption.map
      (fun result => result.log.map fun comparison => (comparison.entry, comparison.match, comparison.isItemsEqual)) =
        some [(if flag then 0 else 1, if flag then 1 else 0, flag)] := by
    cases flag <;> decide +kernel
  cases call : findMatches numbers fuzzy items [if flag then 0 else 1] [if flag then 1 else 0] (pairsOf ["id"]) with
  | error error => simp [call, Except.toOption] at logs
  | ok result => exact ⟨result, rfl, by simpa [call, Except.toOption] using logs⟩

theorem not_symmetric : ∃ first second, findMatches numbers fuzzy items [0] [1] (pairsOf ["id"]) = .ok first ∧
    findMatches numbers fuzzy items [1] [0] (pairsOf ["id"]) = .ok second ∧ ¬ Symmetric items first second := by
  obtain ⟨first, returns1, log1⟩ := returns true
  obtain ⟨second, returns2, log2⟩ := returns false
  refine ⟨first, second, returns1, returns2, fun symmetric => ?_⟩
  have same := (symmetric.same 0 1).mp (List.mem_map.mp (log1 ▸ List.mem_singleton_self _))
  exact absurd (log2 ▸ List.mem_map.mpr same) (by decide)

theorem symmetric_iff_fuzzy : ∃ first second, findMatches numbers fuzzy items [0] [1] (pairsOf ["id"]) = .ok first ∧
    findMatches numbers fuzzy items [1] [0] (pairsOf ["id"]) = .ok second ∧ fuzzy.multipleMatches = some "all" ∧
      (Symmetric items first second ↔ Comparable numbers fuzzy items (HasFields numbers fuzzy items ["id"])
        (AgreeInFields numbers fuzzy items ["id"]) [0] [1]) := by
  obtain ⟨first, returns1, -⟩ := returns true
  obtain ⟨second, returns2, -⟩ := returns false
  exact ⟨first, second, returns1, returns2, rfl, symmetric_iff numbers fuzzy items [0] [1] ["id"] rfl returns1 returns2⟩

end Added

end N8n.Nodes.CompareDatasets
