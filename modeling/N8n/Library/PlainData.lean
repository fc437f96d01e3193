import Mathlib.Algebra.GroupWithZero.Nat
import Mathlib.Logic.Function.Basic

/-! # Nested plain data

Objects, arrays and primitives as a program sees them that reads, assigns and
deletes properties.  An object is the map of its own properties; an array has a
length besides, and deleting an element leaves a hole.  Keys that objects or
arrays inherit are left out.
-/

namespace PlainData

/-- The names that `Object.prototype` and `Array.prototype` have. -/
def prototypeKeys : List String :=
  ["constructor", "__proto__", "__defineGetter__", "__defineSetter__", "__lookupGetter__", "__lookupSetter__",
    "hasOwnProperty", "isPrototypeOf", "propertyIsEnumerable", "toLocaleString", "toString", "valueOf",
    "at", "concat", "copyWithin", "entries", "every", "fill", "filter", "find", "findIndex", "findLast",
    "findLastIndex", "flat", "flatMap", "forEach", "includes", "indexOf", "join", "keys", "lastIndexOf", "map",
    "pop", "push", "reduce", "reduceRight", "reverse", "shift", "slice", "some", "sort", "splice", "toReversed",
    "toSorted", "toSpliced", "unshift", "values", "with"]

abbrev Key := { name : String // name ∉ prototypeKeys }

def lengthKey : Key := ⟨"length", by decide⟩

/-- The index that a key is, in its canonical form. -/
def arrayIndex? (key : Key) : Option Nat :=
  match key.val.toNat? with
  | some index => if toString index = key.val ∧ index < 2 ^ 32 - 1 then some index else none
  | none => none

abbrev Properties (α : Type) := Key → Option α

structure ArrayContents (α : Type) where
  length : Nat
  elements : Key → Option α

namespace ArrayContents

variable {α β : Type}

def set (contents : ArrayContents α) (key : Key) (value : α) : ArrayContents α where
  length := match arrayIndex? key with
    | some index => max contents.length (index + 1)
    | none => contents.length
  elements := Function.update contents.elements key (some value)

def delete (contents : ArrayContents α) (key : Key) : ArrayContents α :=
  { contents with elements := Function.update contents.elements key none }

/-- Assigning a length drops the elements from there on. -/
def resize (contents : ArrayContents α) (length : Nat) : ArrayContents α where
  length := length
  elements := fun key => match arrayIndex? key with
    | some index => if index < length then contents.elements key else none
    | none => contents.elements key

def map (f : α → β) (contents : ArrayContents α) : ArrayContents β where
  length := contents.length
  elements := fun key => (contents.elements key).map f

/-- `[...contents]`: the elements up to the length, with `undefined` for holes. -/
def spread (undefined : α) (contents : ArrayContents α) : ArrayContents α where
  length := contents.length
  elements := fun key => match arrayIndex? key with
    | some index => if index < contents.length then some ((contents.elements key).getD undefined) else none
    | none => none

def Bounded (contents : ArrayContents α) : Prop :=
  ∀ key index, arrayIndex? key = some index → (contents.elements key).isSome → index < contents.length

/-- Every index below the length has an element, and there are no other properties. -/
def Filled (contents : ArrayContents α) : Prop :=
  ∀ key, (contents.elements key).isSome ↔ ∃ index, arrayIndex? key = some index ∧ index < contents.length

variable {contents : ArrayContents α}

theorem Filled.bounded (filled : contents.Filled) : contents.Bounded := by
  intro key index isIndex isSome
  obtain ⟨index', isIndex', below⟩ := (filled key).mp isSome
  rw [isIndex, Option.some.injEq] at isIndex'
  exact isIndex' ▸ below

theorem Filled.spread_eq (filled : contents.Filled) (undefined : α) :
    contents.spread undefined = contents := by
  have elements : (contents.spread undefined).elements = contents.elements := by
    funext key
    simp only [spread]
    cases isIndex : arrayIndex? key with
    | none =>
      have empty : ¬ (contents.elements key).isSome := by simp [filled key, isIndex]
      exact (by simpa using empty : contents.elements key = none).symm
    | some index =>
      by_cases below : index < contents.length
      · obtain ⟨value, found⟩ := Option.isSome_iff_exists.mp ((filled key).mpr ⟨index, isIndex, below⟩)
        simp [below, found]
      · have empty : ¬ (contents.elements key).isSome := by simp [filled key, isIndex, below]
        have isNone : contents.elements key = none := by simpa using empty
        simp [below, isNone]
  cases contents
  exact congrArg (ArrayContents.mk _) elements

theorem Bounded.map (bounded : contents.Bounded) (f : α → β) :
    (contents.map f).Bounded := by
  intro key index isIndex isSome
  exact bounded key index isIndex (by simpa [ArrayContents.map] using isSome)

theorem Bounded.set (bounded : contents.Bounded) (key : Key) (value : α) :
    (contents.set key value).Bounded := by
  intro other index isIndex isSome
  by_cases same : other = key
  · obtain rfl := same
    simp only [ArrayContents.set, isIndex]
    omega
  · simp only [ArrayContents.set, Function.update_of_ne same] at isSome
    have below := bounded other index isIndex isSome
    simp only [ArrayContents.set]
    split <;> omega

theorem Bounded.delete (bounded : contents.Bounded) (key : Key) :
    (contents.delete key).Bounded := by
  intro other index isIndex isSome
  by_cases same : other = key
  · simp [ArrayContents.delete, same] at isSome
  · simp only [ArrayContents.delete, Function.update_of_ne same] at isSome
    exact bounded other index isIndex isSome

theorem bounded_resize (contents : ArrayContents α) (length : Nat) : (contents.resize length).Bounded := by
  intro key index isIndex isSome
  by_contra notBelow
  have dropped : ¬ index < length := notBelow
  simp [resize, isIndex, dropped] at isSome

/-- Assigning an element that is there already leaves the length. -/
theorem Bounded.set_length (bounded : contents.Bounded) {key : Key} (present : (contents.elements key).isSome)
    (value : α) : (contents.set key value).length = contents.length := by
  cases isIndex : arrayIndex? key with
  | none => simp [ArrayContents.set, isIndex]
  | some index =>
    have below := bounded key index isIndex present
    simp only [ArrayContents.set, isIndex]
    omega

/-- The arrays have the same length, and elements at the same keys, which are related. -/
structure Relates (r : α → β → Prop) (first : ArrayContents α) (second : ArrayContents β) : Prop where
  length : first.length = second.length
  elements : ∀ key, Option.Rel r (first.elements key) (second.elements key)

end ArrayContents

theorem rel_update {α β : Type} {r : α → β → Prop} {first : Properties α} {second : Properties β}
    (related : ∀ key, Option.Rel r (first key) (second key)) (key : Key) {value : Option α} {value' : Option β}
    (valuesRelated : Option.Rel r value value') (other : Key) :
    Option.Rel r (Function.update first key value other) (Function.update second key value' other) := by
  by_cases same : other = key
  · obtain rfl := same
    simpa using valuesRelated
  · simpa [Function.update_of_ne same] using related other

theorem rel_isSome {α β : Type} {r : α → β → Prop} {first : Option α} {second : Option β}
    (related : Option.Rel r first second) : first.isSome = second.isSome := by
  cases related <;> rfl

namespace ArrayContents.Relates

variable {α β : Type} {r : α → β → Prop} {first : ArrayContents α} {second : ArrayContents β}

theorem set (related : Relates r first second) (key : Key) {value : α} {value' : β} (valuesRelated : r value value') :
    Relates r (first.set key value) (second.set key value') where
  length := by simp only [ArrayContents.set, related.length]
  elements := rel_update related.elements key (.some valuesRelated)

theorem delete (related : Relates r first second) (key : Key) :
    Relates r (first.delete key) (second.delete key) where
  length := related.length
  elements := rel_update related.elements key .none

theorem resize (related : Relates r first second) (length : Nat) :
    Relates r (first.resize length) (second.resize length) where
  length := rfl
  elements := by
    intro key
    simp only [ArrayContents.resize]
    split
    · split
      · exact related.elements key
      · exact .none
    · exact related.elements key

end ArrayContents.Relates

/-! ## Values and what a program does with them -/

inductive Primitive (ν : Type) where
  | undefined
  | null
  | boolean (value : Bool)
  | number (value : ν)
  | string (value : String)

/-- The numbers, as far as arrays need them. -/
structure NumberSystem (ν : Type) where
  ofLength : Nat → ν
  isNaN : ν → Bool
  /-- The length that assigning a value to `length` gives; `none` for a `RangeError`. -/
  toLength : Primitive ν → Option Nat

end PlainData

open PlainData

inductive PlainData (ν : Type) where
  | primitive (value : Primitive ν)
  | object (properties : Key → Option (PlainData ν))
  | array (contents : ArrayContents (PlainData ν))

namespace PlainData

variable {ν ω ω' : Type}

def undefined : PlainData ν := .primitive .undefined

def isPrimitive : PlainData ν → Bool
  | .primitive _ => true
  | _ => false

def isUndefined : PlainData ν → Bool
  | .primitive .undefined => true
  | _ => false

/-- Arrays without holes, all the way down. -/
inductive Dense : PlainData ν → Prop where
  | primitive (value : Primitive ν) : Dense (.primitive value)
  | object {properties : Properties (PlainData ν)}
      (children : ∀ key child, properties key = some child → Dense child) : Dense (.object properties)
  | array {contents : ArrayContents (PlainData ν)} (filled : contents.Filled)
      (children : ∀ key child, contents.elements key = some child → Dense child) : Dense (.array contents)

abbrev DenseData (ν : Type) := { data : PlainData ν // data.Dense }

inductive Action (ν : Type) where
  | get (key : Key)
  | set (key : Key) (value : DenseData ν)
  | delete (key : Key)
  | has (key : Key)
  | keys

inductive Answer (ν ω : Type) where
  | value (value : ω)
  | done (success : Bool)
  | present (isPresent : Bool)
  | keys (isKey : Key → Bool)
  | notAnObject (value : Primitive ν)
  | rangeError

inductive Answer.Agrees (r : ω → ω' → Prop) : Answer ν ω → Answer ν ω' → Prop where
  | value {value : ω} {value' : ω'} (related : r value value') : Agrees r (.value value) (.value value')
  | done (success : Bool) : Agrees r (.done success) (.done success)
  | present (isPresent : Bool) : Agrees r (.present isPresent) (.present isPresent)
  | keys (isKey : Key → Bool) : Agrees r (.keys isKey) (.keys isKey)
  | notAnObject (value : Primitive ν) : Agrees r (.notAnObject value) (.notAnObject value)
  | rangeError : Agrees r .rangeError .rangeError

def Answer.map (f : ω → ω') : Answer ν ω → Answer ν ω'
  | .value found => .value (f found)
  | .done success => .done success
  | .present isPresent => .present isPresent
  | .keys isKey => .keys isKey
  | .notAnObject instead => .notAnObject instead
  | .rangeError => .rangeError

section

variable (numbers : NumberSystem ν)

def get : PlainData ν → Key → PlainData ν
  | .primitive _, _ => undefined
  | .object properties, key => (properties key).getD undefined
  | .array contents, key =>
    if key = lengthKey then .primitive (.number (numbers.ofLength contents.length))
    else (contents.elements key).getD undefined

/-- Assigning to `length`, over elements of any kind. -/
def assignLength {α : Type} (contents : ArrayContents α) (value : PlainData ν) : Option (ArrayContents α) :=
  match value with
  | .primitive value => (numbers.toLength value).map contents.resize
  | _ => none

/-- `counted` tells whether assigning `undefined` to a key of an object counts as deleting the key. -/
def perform (counted : Bool) : PlainData ν → Action ν → Answer ν (PlainData ν) × PlainData ν
  | .primitive value, _ => (.notAnObject value, .primitive value)
  | data, .get key => (.value (data.get numbers key), data)
  | .object properties, .set key value =>
    if counted && value.val.isUndefined then (.done true, .object (Function.update properties key none))
    else (.done true, .object (Function.update properties key (some value.val)))
  | .object properties, .delete key => (.done true, .object (Function.update properties key none))
  | .object properties, .has key => (.present (properties key).isSome, .object properties)
  | .object properties, .keys => (.keys fun key => (properties key).isSome, .object properties)
  | .array contents, .set key value =>
    if key = lengthKey then
      match assignLength numbers contents value.val with
      | some resized => (.done true, .array resized)
      | none => (.rangeError, .array contents)
    else (.done true, .array (contents.set key value.val))
  | .array contents, .delete key =>
    -- the length cannot be deleted
    if key = lengthKey then (.done false, .array contents) else (.done true, .array (contents.delete key))
  | .array contents, .has key => (.present (key = lengthKey || (contents.elements key).isSome), .array contents)
  | .array contents, .keys => (.keys fun key => (contents.elements key).isSome, .array contents)

/-- What a change of the value at a key makes of the value around it. -/
def replace : PlainData ν → Key → PlainData ν → PlainData ν
  | .primitive value, _, _ => .primitive value
  | .object properties, key, child => .object (Function.update properties key (some child))
  | .array contents, key, child =>
    .array { contents with elements := Function.update contents.elements key (some child) }

def performAt (counted : Bool) : List Key → Action ν → PlainData ν → Answer ν (PlainData ν) × PlainData ν
  | [], action, data => data.perform numbers counted action
  | _ :: _, _, .primitive value => (.notAnObject value, .primitive value)
  | key :: path, action, data =>
    match data.get numbers key with
    | .primitive value => (.notAnObject value, data)
    | child =>
      let (answer, changed) := performAt counted path action child
      (answer, data.replace key changed)

end

/-! ## Induction -/

mutual

/-- What holds of primitives, and of objects and arrays as soon as it holds of the values in them, holds of all data. -/
theorem nestedInduction {P : PlainData ν → Prop} (primitive : ∀ value, P (.primitive value))
    (object : ∀ properties, (∀ key child, properties key = some child → P child) → P (.object properties))
    (array : ∀ length elements, (∀ key child, elements key = some child → P child) → P (.array ⟨length, elements⟩)) :
    ∀ data : PlainData ν, P data
  | .primitive value => primitive value
  | .object properties =>
    object properties fun key => nestedInduction_entry primitive object array (properties key)
  | .array ⟨length, elements⟩ =>
    array length elements fun key => nestedInduction_entry primitive object array (elements key)

theorem nestedInduction_entry {P : PlainData ν → Prop} (primitive : ∀ value, P (.primitive value))
    (object : ∀ properties, (∀ key child, properties key = some child → P child) → P (.object properties))
    (array : ∀ length elements, (∀ key child, elements key = some child → P child) → P (.array ⟨length, elements⟩)) :
    ∀ (entry : Option (PlainData ν)) (child : PlainData ν), entry = some child → P child
  | none, _, isChild => by cases isChild
  | some value, _, isChild => Option.some.inj isChild ▸ nestedInduction primitive object array value

end

end PlainData
