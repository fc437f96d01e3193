import Mathlib.Data.List.Forall2
import N8n.Library.PlainData

/-! # Augmented data

`AugmentObject.ts` wraps data in proxies that keep changes beside it: an object
proxy has the assigned values and the deleted names, an array proxy copies the
array at the first change.  Both replace the nested objects that are read by
proxies of their own.  `Shows` says what a proxy looks like from outside.
-/

namespace N8n

open PlainData

/-- A value as the proxies hand it out; only plain values are not proxies. -/
inductive Augmented (ν : Type) where
  | plain (value : PlainData ν)
  | object (data : Key → Option (PlainData ν)) (newData : Key → Option (Augmented ν))
      (deletedProperties : Key → Bool)
  | array (data : ArrayContents (PlainData ν)) (newData : Option (ArrayContents (Augmented ν)))

def augment {ν : Type} : PlainData ν → Augmented ν
  | .primitive value => .plain (.primitive value)
  | .object data => .object data (fun _ => none) fun _ => false
  | .array data => .array data none

namespace Augmented

variable {ν : Type}

def data : Augmented ν → PlainData ν
  | .plain value => value
  | .object data _ _ => .object data
  | .array data _ => .array data

def isProxy : Augmented ν → Bool
  | .plain _ => false
  | _ => true

def isAugmentedObject : Augmented ν → Bool
  | .object _ _ _ => true
  | _ => false

/-- `augment` of a value that may be a proxy already. -/
def augmentOnce : Augmented ν → Augmented ν
  | .plain value => augment value
  | proxy => proxy

/-- `newData ?? target` of an array proxy. -/
def current (data : ArrayContents (PlainData ν)) (newData : Option (ArrayContents (Augmented ν))) :
    ArrayContents (Augmented ν) :=
  newData.getD (data.map .plain)

/-- The copy that an array proxy changes. -/
def getData (data : ArrayContents (PlainData ν)) (newData : Option (ArrayContents (Augmented ν))) :
    ArrayContents (Augmented ν) :=
  newData.getD ((data.map .plain).spread (.plain undefined))

section

variable (numbers : NumberSystem ν)

/-- `augment(value) !== value`, which also holds of NaN. -/
def differs : Augmented ν → Bool
  | .plain (.primitive (.number value)) => numbers.isNaN value
  | .plain value => !value.isPrimitive
  | _ => false

/-- The value at a key, and the receiver afterwards. -/
def get : Augmented ν → Key → Augmented ν × Augmented ν
  | .plain value, key => (.plain (value.get numbers key), .plain value)
  | .object data newData deletedProperties, key =>
    if deletedProperties key then (.plain undefined, .object data newData deletedProperties)
    else match newData key with
      | some value => (value, .object data newData deletedProperties)
      | none => match data key with
        | none => (.plain undefined, .object data newData deletedProperties)
        | some value =>
          if value.isPrimitive then (.plain value, .object data newData deletedProperties)
          else
            let newValue := augment value
            (newValue, .object data (Function.update newData key (some newValue)) deletedProperties)
  | .array data newData, key =>
    if key = lengthKey then
      (.plain (.primitive (.number (numbers.ofLength (current data newData).length))), .array data newData)
    else match (current data newData).elements key with
      | none => (.plain undefined, .array data newData)
      | some value =>
        let newValue := augmentOnce value
        if differs numbers value then (newValue, .array data (some ((getData data newData).set key newValue)))
        else (value, .array data newData)

def perform : Augmented ν → Action ν → Answer ν (Augmented ν) × Augmented ν
  | .plain value, action =>
    let (answer, changed) := value.perform numbers false action
    (answer.map .plain, .plain changed)
  | receiver, .get key =>
    let (value, changed) := receiver.get numbers key
    (.value value, changed)
  | .object data newData deletedProperties, .set key newValue =>
    if newValue.val.isUndefined then
      (.done true, .object data (Function.update newData key none)
        (if (data key).isSome then Function.update deletedProperties key true else deletedProperties))
    else
      (.done true, .object data (Function.update newData key (some (.plain newValue.val)))
        (Function.update deletedProperties key false))
  | .object data newData deletedProperties, .delete key =>
    (.done true, .object data (Function.update newData key none)
      (if (data key).isSome then Function.update deletedProperties key true else deletedProperties))
  | .object data newData deletedProperties, .has key =>
    (.present (if deletedProperties key then false
      else if (newData key).isSome then true else (data key).isSome), .object data newData deletedProperties)
  | .object data newData deletedProperties, .keys =>
    (.keys fun key => ((data key).isSome || (newData key).isSome) && !deletedProperties key,
      .object data newData deletedProperties)
  | .array data newData, .set key newValue =>
    if key = lengthKey then
      match assignLength numbers (getData data newData) newValue.val with
      | some resized => (.done true, .array data (some resized))
      | none => (.rangeError, .array data (some (getData data newData)))
    else (.done true, .array data (some ((getData data newData).set key (augment newValue.val))))
  | .array data newData, .delete key =>
    if key = lengthKey then (.done false, .array data (some (getData data newData)))
    else (.done true, .array data (some ((getData data newData).delete key)))
  | .array data newData, .has key =>
    (.present (key = lengthKey || ((current data newData).elements key).isSome), .array data newData)
  | .array data newData, .keys =>
    (.keys fun key => ((current data newData).elements key).isSome, .array data newData)

/-- What a change inside the object at a key makes of the proxy around it. -/
def replace : Augmented ν → Key → Augmented ν → Augmented ν
  | .plain value, _, _ => .plain value
  | .object data newData deletedProperties, key, child =>
    .object data (Function.update newData key (some child)) deletedProperties
  | .array data newData, key, child =>
    .array data (newData.map fun contents =>
      { contents with elements := Function.update contents.elements key (some child) })

/-- An action on the object that reading the keys of the path leads to. -/
def performAt : List Key → Action ν → Augmented ν → Answer ν (Augmented ν) × Augmented ν
  | [], action, receiver => receiver.perform numbers action
  | key :: path, action, .plain value =>
    let (answer, changed) := value.performAt numbers false (key :: path) action
    (answer.map .plain, .plain changed)
  | key :: path, action, receiver =>
    match receiver.get numbers key with
    | (.plain (.primitive value), receiver) => (.notAnObject value, receiver)
    | (child, receiver) =>
      let (answer, changed) := performAt path action child
      (answer, receiver.replace key changed)

def reached : List Key → Augmented ν → Augmented ν
  | [], receiver => receiver
  | key :: path, receiver => reached path (receiver.get numbers key).1

end

/-! ## What a proxy looks like -/

def visible (data : Key → Option (PlainData ν)) (newData : Key → Option (Augmented ν))
    (deletedProperties : Key → Bool) (key : Key) : Option (Augmented ν) :=
  if deletedProperties key then none else (newData key).or ((data key).map .plain)

/-- Whoever reads the proxy sees the data. -/
inductive Shows : Augmented ν → PlainData ν → Prop where
  | plain (value : PlainData ν) : Shows (.plain value) value
  | object {data newData deletedProperties properties}
      (properties_shown : ∀ key, Option.Rel Shows (visible data newData deletedProperties key) (properties key)) :
      Shows (.object data newData deletedProperties) (.object properties)
  | array {data newData contents} (length : (current data newData).length = contents.length)
      (elements : ∀ key, Option.Rel Shows ((current data newData).elements key) (contents.elements key)) :
      Shows (.array data newData) (.array contents)

/-- The data behind the proxies is as it was: the proxy of a nested object has the object of the data
around it, and what an array proxy has copied but not wrapped is still the element of its data. -/
inductive Intact : Augmented ν → Prop where
  | plain (value : PlainData ν) : Intact (.plain value)
  | object {data newData deletedProperties} (dense : Dense (.object data))
      (nested : ∀ key view, newData key = some view → Intact view)
      (shared : ∀ key view, newData key = some view → view.isProxy = true → data key = some view.data) :
      Intact (.object data newData deletedProperties)
  | array {data newData} (dense : Dense (.array data)) (bounded : (current data newData).Bounded)
      (nested : ∀ key view, (current data newData).elements key = some view → Intact view)
      (shared : ∀ key value, (current data newData).elements key = some (.plain value) →
        value.isPrimitive = true ∨ data.elements key = some value) :
      Intact (.array data newData)

theorem shows_plain_iff {value data : PlainData ν} : Shows (.plain value) data ↔ data = value := by
  constructor
  · intro shown
    cases shown
    rfl
  · rintro rfl
    exact .plain _

variable {data : PlainData ν}

theorem Shows.object_inv {original newData deletedProperties}
    (shows : Shows (.object original newData deletedProperties) data) : ∃ properties, data = .object properties ∧
      ∀ key, Option.Rel Shows (visible original newData deletedProperties key) (properties key) := by
  cases shows with
  | object shown => exact ⟨_, rfl, shown⟩

theorem Shows.array_inv {original newData} (shows : Shows (.array original newData) data) :
    ∃ contents, data = .array contents ∧ (current original newData).Relates Shows contents := by
  cases shows with
  | array length elements => exact ⟨_, rfl, length, elements⟩

theorem rel_plain_iff {value data : Option (PlainData ν)} :
    Option.Rel Shows (value.map .plain) data ↔ data = value := by
  cases value with
  | none =>
    constructor
    · intro related
      cases related
      rfl
    · rintro rfl
      exact .none
  | some value =>
    constructor
    · intro related
      cases related with
      | some shown => rw [shows_plain_iff.mp shown]
    · rintro rfl
      exact .some (.plain value)

theorem augment_shows (value : PlainData ν) : Shows (augment value) value := by
  cases value with
  | primitive value => exact .plain _
  | object data => exact .object fun key => rel_plain_iff.mpr rfl
  | array data => exact .array rfl fun key => rel_plain_iff.mpr rfl

theorem augment_intact {value : PlainData ν} (dense : value.Dense) : Intact (augment value) := by
  cases value with
  | primitive value => exact .plain _
  | object data =>
    refine .object dense ?_ ?_
    · intro key view found
      cases found
    · intro key view found
      cases found
  | array data =>
    cases dense with
    | array filled children =>
      refine .array (.array filled children) (filled.bounded.map _) (fun key view found => ?_)
        fun key value found => ?_
      · obtain ⟨value, _, rfl⟩ := Option.map_eq_some_iff.mp found
        exact .plain value
      · obtain ⟨_, inData, same⟩ := Option.map_eq_some_iff.mp found
        cases same
        exact .inr inData

@[simp] theorem data_augment (value : PlainData ν) : (augment value).data = value := by
  cases value <;> rfl

theorem isProxy_augment {value : PlainData ν} (nested : value.isPrimitive = false) :
    (augment value).isProxy = true := by
  cases value with
  | primitive => cases nested
  | object => rfl
  | array => rfl

theorem getData_eq {data : ArrayContents (PlainData ν)} (filled : data.Filled)
    (newData : Option (ArrayContents (Augmented ν))) : getData data newData = current data newData := by
  have mapFilled : (data.map Augmented.plain).Filled := by
    intro key
    simp only [ArrayContents.map, Option.isSome_map]
    exact filled key
  rw [getData, current, mapFilled.spread_eq]

/-! ## Reading -/

/-- The proxy keeps the nested object at the key. -/
def Holds : Augmented ν → Key → Augmented ν → Prop
  | .plain _, _, _ => False
  | .object _ newData deletedProperties, key, child => deletedProperties key = false ∧ newData key = some child
  | .array _ newData, key, child =>
    child.isProxy = true ∧ ∃ contents, newData = some contents ∧ contents.elements key = some child

structure Reads (numbers : NumberSystem ν) (receiver : Augmented ν) (data : PlainData ν) (key : Key)
    (child changed : Augmented ν) : Prop where
  child_shows : Shows child (data.get numbers key)
  child_intact : Intact child
  shows : Shows changed data
  intact : Intact changed
  isProxy : changed.isProxy = true
  data_eq : changed.data = receiver.data
  holds : child.data.isPrimitive = false → changed.Holds key child

variable {numbers : NumberSystem ν}

variable {newData : Key → Option (Augmented ν)} {deletedProperties : Key → Bool}

theorem Intact.update {original : Key → Option (PlainData ν)}
    (intact : Intact (.object original newData deletedProperties)) (key : Key) {view : Option (Augmented ν)}
    (viewIntact : ∀ kept, view = some kept → Intact kept)
    (viewShared : ∀ kept, view = some kept → kept.isProxy = true → original key = some kept.data)
    (deleted : Key → Bool) : Intact (.object original (Function.update newData key view) deleted) := by
  cases intact with
  | object dense nested shared =>
    refine .object dense (fun other kept found => ?_) fun other kept found isProxy => ?_
    · by_cases same : other = key
      · rw [same, Function.update_self] at found
        exact viewIntact kept found
      · rw [Function.update_of_ne same] at found
        exact nested other kept found
    · by_cases same : other = key
      · rw [same, Function.update_self] at found
        exact same ▸ viewShared kept found isProxy
      · rw [Function.update_of_ne same] at found
        exact shared other kept found isProxy

variable {key : Key}

theorem shows_update {original properties : Key → Option (PlainData ν)}
    (shown : ∀ key, Option.Rel Shows (visible original newData deletedProperties key) (properties key))
    (notDeleted : deletedProperties key = false) {view : Augmented ν} {element : PlainData ν}
    (view_shows : Shows view element) :
    Shows (.object original (Function.update newData key (some view)) deletedProperties)
      (.object (Function.update properties key (some element))) := by
  refine .object fun other => ?_
  by_cases same : other = key
  · obtain rfl := same
    simpa [visible, notDeleted] using Option.Rel.some view_shows
  · have shownOther := shown other
    rw [visible] at shownOther ⊢
    rwa [Function.update_of_ne same, Function.update_of_ne same]

theorem reads_object {original : Key → Option (PlainData ν)}
    (shows : Shows (.object original newData deletedProperties) data)
    (intact : Intact (.object original newData deletedProperties)) (key : Key) :
    Reads numbers (.object original newData deletedProperties) data key
      ((Augmented.object original newData deletedProperties).get numbers key).1
      ((Augmented.object original newData deletedProperties).get numbers key).2 := by
  obtain ⟨properties, rfl, shown⟩ := shows.object_inv
  obtain ⟨dense, nested, shared⟩ : Dense (.object original) ∧
      (∀ key view, newData key = some view → Intact view) ∧
        ∀ key view, newData key = some view → view.isProxy = true → original key = some view.data := by
    cases intact with
    | object dense nested shared => exact ⟨dense, nested, shared⟩
  have atKey := shown key
  have unchanged : ∀ value : Augmented ν, Shows value (PlainData.get numbers (.object properties) key) →
      Intact value → (value.data.isPrimitive = false → deletedProperties key = false ∧ newData key = some value) →
      Reads numbers (.object original newData deletedProperties) (.object properties) key value
        (.object original newData deletedProperties) := fun value child_shows child_intact holds =>
    ⟨child_shows, child_intact, .object shown, .object dense nested shared, rfl, rfl, holds⟩
  -- In the order of the trap: deleted keys, then what was written, then the data itself.
  by_cases deleted : deletedProperties key = true
  · rw [visible, if_pos deleted] at atKey
    have missing : properties key = none := by
      generalize properties key = property at atKey
      cases atKey
      rfl
    rw [get, if_pos deleted]
    refine unchanged _ ?_ (.plain _) (fun nested => by cases nested)
    rw [PlainData.get, missing]
    exact .plain _
  rw [visible, if_neg deleted] at atKey
  rw [get, if_neg deleted]
  have notDeleted : deletedProperties key = false := by simpa using deleted
  cases found : newData key with
  | some value =>
    rw [found] at atKey
    refine unchanged value ?_ (nested key value found) (fun _ => ⟨notDeleted, found⟩)
    rw [PlainData.get]
    generalize properties key = property at atKey
    cases atKey with
    | some child_shows => exact child_shows
  | none =>
    rw [found, Option.none_or, rel_plain_iff] at atKey
    cases inData : original key with
    | none =>
      refine unchanged _ ?_ (.plain _) (fun nested => by cases nested)
      rw [PlainData.get, atKey, inData]
      exact .plain _
    | some value =>
      have read : PlainData.get numbers (.object properties) key = value := by
        rw [PlainData.get, atKey, inData]
        rfl
      by_cases isPrimitive : value.isPrimitive = true
      · simp only [if_pos isPrimitive]
        refine unchanged _ (read ▸ .plain _) (.plain _) (fun nested => ?_)
        rw [data, isPrimitive] at nested
        cases nested
      · -- the nested object is wrapped and kept
        simp only [if_neg isPrimitive]
        have valueDense : value.Dense := by
          cases dense with
          | object children => exact children key value inData
        have sameProperties : Function.update properties key (some value) = properties := by
          rw [← inData, ← atKey, Function.update_eq_self]
        have wrapped := shows_update shown notDeleted (augment_shows value)
        rw [sameProperties] at wrapped
        refine ⟨read ▸ augment_shows value, augment_intact valueDense, wrapped,
          intact.update key ?_ ?_ deletedProperties, rfl, rfl, fun _ => ⟨notDeleted, by simp⟩⟩
        · rintro _ ⟨⟩
          exact augment_intact valueDense
        · rintro _ ⟨⟩ _
          rw [inData, data_augment]

theorem isPrimitive_of_augment {value other : PlainData ν} (isPlain : augment value = .plain other) :
    other.isPrimitive = true := by
  cases value with
  | primitive => cases isPlain; rfl
  | object => cases isPlain
  | array => cases isPlain

section Array

variable {original : ArrayContents (PlainData ν)} {newData : Option (ArrayContents (Augmented ν))}

theorem Intact.filled (intact : Intact (.array original newData)) : original.Filled := by
  cases intact with
  | array dense => cases dense with
    | array filled => exact filled

theorem Intact.element_dense (intact : Intact (.array original newData)) {key : Key} {value : PlainData ν}
    (found : (current original newData).elements key = some (.plain value)) : value.Dense := by
  cases intact with
  | array dense bounded nested shared =>
    cases shared key value found with
    | inl isPrimitive =>
      cases value with
      | primitive value => exact .primitive value
      | object => cases isPrimitive
      | array => cases isPrimitive
    | inr inData =>
      cases dense with
      | array filled children => exact children key value inData

/-- An array proxy changes its copy only. -/
theorem Intact.withElement (intact : Intact (.array original newData)) {key : Key} {view : Augmented ν}
    {contents : ArrayContents (Augmented ν)} (bounded : (current original newData).Bounded → contents.Bounded)
    (elements : contents.elements = Function.update (current original newData).elements key (some view))
    (viewIntact : Intact view) (unwrapped : ∀ value, view = .plain value →
      value.isPrimitive = true ∨ original.elements key = some value) :
    Intact (.array original (some contents)) := by
  cases intact with
  | array dense before nested shared =>
    refine .array dense (bounded before) (fun other next found => ?_) fun other value found => ?_ <;>
      rw [current, Option.getD_some, elements] at found <;> by_cases same : other = key
    · rw [same, Function.update_self] at found
      exact Option.some.inj found ▸ viewIntact
    · rw [Function.update_of_ne same] at found
      exact nested other next found
    · rw [same, Function.update_self] at found
      exact same ▸ unwrapped value (Option.some.inj found)
    · rw [Function.update_of_ne same] at found
      exact shared other value found

theorem Intact.set (intact : Intact (.array original newData)) (key : Key) {view : Augmented ν}
    (viewIntact : Intact view) (unwrapped : ∀ value, view = .plain value →
      value.isPrimitive = true ∨ original.elements key = some value) :
    Intact (.array original (some ((getData original newData).set key view))) := by
  rw [getData_eq intact.filled]
  exact intact.withElement (fun bounded => bounded.set key view) rfl viewIntact unwrapped

theorem reads_array {data : PlainData ν} (shows : Shows (.array original newData) data)
    (intact : Intact (.array original newData)) (key : Key) :
    Reads numbers (.array original newData) data key
      ((Augmented.array original newData).get numbers key).1
      ((Augmented.array original newData).get numbers key).2 := by
  obtain ⟨contents, rfl, related⟩ := shows.array_inv
  have unchanged : ∀ value : Augmented ν, Shows value (PlainData.get numbers (.array contents) key) →
      Intact value → (value.data.isPrimitive = false → (Augmented.array original newData).Holds key value) →
      Reads numbers (.array original newData) (.array contents) key value (.array original newData) :=
    fun value child_shows child_intact holds => ⟨child_shows, child_intact, shows, intact, rfl, rfl, holds⟩
  by_cases isLength : key = lengthKey
  · rw [get, if_pos isLength]
    refine unchanged _ ?_ (.plain _) (fun nested => by cases nested)
    rw [PlainData.get, if_pos isLength, related.length]
    exact .plain _
  have atKey := related.elements key
  rw [get, if_neg isLength]
  cases found : (current original newData).elements key with
  | none =>
    rw [found] at atKey
    refine unchanged _ ?_ (.plain _) (fun nested => by cases nested)
    rw [PlainData.get, if_neg isLength]
    generalize contents.elements key = element at atKey
    cases atKey
    exact .plain _
  | some value =>
    rw [found] at atKey
    obtain ⟨element, present, element_shows⟩ : ∃ element, contents.elements key = some element ∧
        Shows value element := by
      generalize contents.elements key = element at atKey
      cases atKey with
      | some element_shows => exact ⟨_, rfl, element_shows⟩
    have read : PlainData.get numbers (.array contents) key = element := by
      rw [PlainData.get, if_neg isLength, present]
      rfl
    by_cases differ : differs numbers value = true
    · simp only [if_pos differ]
      obtain ⟨plainValue, rfl⟩ : ∃ plainValue, value = .plain plainValue := by
        cases value with
        | plain plainValue => exact ⟨plainValue, rfl⟩
        | object => cases differ
        | array => cases differ
      obtain rfl := shows_plain_iff.mp element_shows
      have wrapped := augment_intact (intact.element_dense found)
      refine ⟨read ▸ augment_shows element, wrapped, ?_,
        intact.set key wrapped fun other isPlain => .inl (isPrimitive_of_augment isPlain), rfl, rfl,
        fun nested => ⟨isProxy_augment (by simpa [augmentOnce] using nested), _, rfl,
          by simp [ArrayContents.set, augmentOnce]⟩⟩
      have bounded : (current original newData).Bounded := by
        cases intact with
        | array _ bounded => exact bounded
      rw [getData_eq intact.filled]
      refine .array ((bounded.set_length (by simp [found]) _).trans related.length) fun other => ?_
      have updated := rel_update related.elements key (.some (augment_shows element)) other
      rwa [← present, Function.update_eq_self] at updated
    · simp only [if_neg differ]
      have valueIntact : Intact value := by
        cases intact with
        | array _ _ nested => exact nested key value found
      refine unchanged value (read ▸ element_shows) valueIntact fun nested => ?_
      -- a nested element that is not wrapped would have been
      have isProxy : value.isProxy = true := by
        cases value with
        | plain plainValue =>
          cases plainValue with
          | primitive => cases nested
          | object => exact absurd rfl differ
          | array => exact absurd rfl differ
        | object => rfl
        | array => rfl
      refine ⟨isProxy, ?_⟩
      cases copied : newData with
      | some copy => exact ⟨copy, rfl, by simpa [current, copied] using found⟩
      | none =>
        simp only [current, copied, Option.getD_none] at found
        obtain ⟨plainValue, _, rfl⟩ := Option.map_eq_some_iff.mp found
        cases isProxy

end Array

variable {receiver : Augmented ν}

theorem reads (shows : Shows receiver data) (intact : Intact receiver)
    (proxy : receiver.isProxy = true) (key : Key) :
    Reads numbers receiver data key (receiver.get numbers key).1 (receiver.get numbers key).2 := by
  cases receiver with
  | plain => cases proxy
  | object => exact reads_object shows intact key
  | array => exact reads_array shows intact key

/-! ## Changing -/

/-- An action on a proxy next to the same action on the data that it shows. -/
structure Mirrors (receiver : Augmented ν) (outcome : Answer ν (Augmented ν) × Augmented ν)
    (expected : Answer ν (PlainData ν) × PlainData ν) : Prop where
  agrees : Answer.Agrees Shows outcome.1 expected.1
  shows : Shows outcome.2 expected.2
  intact : Intact outcome.2
  isProxy_eq : outcome.2.isProxy = receiver.isProxy
  data_eq : receiver.isProxy = true → outcome.2.data = receiver.data

theorem agrees_map_plain (answer : Answer ν (PlainData ν)) : Answer.Agrees Shows (answer.map .plain) answer := by
  cases answer with
  | value found => exact .value (.plain found)
  | done => exact .done _
  | present => exact .present _
  | keys => exact .keys _
  | notAnObject => exact .notAnObject _
  | rangeError => exact .rangeError

theorem mirrors_plain (value : PlainData ν) (outcome : Answer ν (PlainData ν) × PlainData ν) :
    Mirrors (.plain value) (outcome.1.map .plain, .plain outcome.2) outcome where
  agrees := agrees_map_plain outcome.1
  shows := .plain _
  intact := .plain _
  isProxy_eq := rfl
  data_eq := fun proxy => by cases proxy

section Object

variable {original : Key → Option (PlainData ν)} {newData : Key → Option (Augmented ν)}
  {deletedProperties : Key → Bool} {properties : Key → Option (PlainData ν)}

theorem shows_assigned
    (shown : ∀ key, Option.Rel Shows (visible original newData deletedProperties key) (properties key))
    (key : Key) (value : PlainData ν) :
    Shows (.object original (Function.update newData key (some (.plain value)))
      (Function.update deletedProperties key false)) (.object (Function.update properties key (some value))) := by
  refine .object fun other => ?_
  by_cases same : other = key
  · obtain rfl := same
    simpa [visible] using Option.Rel.some (Shows.plain value)
  · have shownOther := shown other
    rw [visible] at shownOther ⊢
    rwa [Function.update_of_ne same, Function.update_of_ne same, Function.update_of_ne same]

theorem shows_deleted
    (shown : ∀ key, Option.Rel Shows (visible original newData deletedProperties key) (properties key)) (key : Key) :
    Shows (.object original (Function.update newData key none)
      (if (original key).isSome then Function.update deletedProperties key true else deletedProperties))
        (.object (Function.update properties key none)) := by
  refine .object fun other => ?_
  by_cases same : other = key
  · obtain rfl := same
    have hidden : visible original (Function.update newData other none)
        (if (original other).isSome then Function.update deletedProperties other true else deletedProperties)
          other = none := by
      cases inData : original other <;> simp [visible, inData]
    rw [hidden, Function.update_self]
    exact .none
  · have shownOther := shown other
    have kept : (if (original key).isSome then Function.update deletedProperties key true
        else deletedProperties) other = deletedProperties other := by
      split
      · rw [Function.update_of_ne same]
      · rfl
    rw [visible] at shownOther ⊢
    rwa [Function.update_of_ne same, Function.update_of_ne same, kept]

theorem Intact.assigned (intact : Intact (.object original newData deletedProperties)) (key : Key)
    (value : PlainData ν) (deleted : Key → Bool) :
    Intact (.object original (Function.update newData key (some (.plain value))) deleted) := by
  refine intact.update key ?_ ?_ deleted
  · rintro _ ⟨⟩
    exact .plain value
  · rintro _ ⟨⟩ isProxy
    cases isProxy

theorem Intact.deleted (intact : Intact (.object original newData deletedProperties)) (key : Key)
    (deleted : Key → Bool) : Intact (.object original (Function.update newData key none) deleted) :=
  intact.update key (by simp) (by simp) deleted

theorem perform_object (intact : Intact (.object original newData deletedProperties))
    (shown : ∀ key, Option.Rel Shows (visible original newData deletedProperties key) (properties key))
    (action : Action ν) :
    Mirrors (.object original newData deletedProperties)
      ((Augmented.object original newData deletedProperties).perform numbers action)
      ((PlainData.object properties).perform numbers true action) := by
  have present (key : Key) : (properties key).isSome = (visible original newData deletedProperties key).isSome :=
    (rel_isSome (shown key)).symm
  cases action with
  | get key =>
    have read : Reads numbers _ _ key _ _ := reads_object (.object shown) intact key
    exact ⟨.value read.child_shows, read.shows, read.intact, read.isProxy, fun _ => read.data_eq⟩
  | set key value =>
    rw [perform, PlainData.perform, Bool.true_and]
    split
    · exact ⟨.done true, shows_deleted shown key, intact.deleted key _, rfl, fun _ => rfl⟩
    · exact ⟨.done true, shows_assigned shown key value.val, intact.assigned key value.val _, rfl, fun _ => rfl⟩
  | delete key => exact ⟨.done true, shows_deleted shown key, intact.deleted key _, rfl, fun _ => rfl⟩
  | has key =>
    have same : (properties key).isSome = (if deletedProperties key then false
        else if (newData key).isSome then true else (original key).isSome) := by
      rw [present, visible]
      cases deletedProperties key <;> cases newData key <;> simp
    rw [PlainData.perform, same]
    exact ⟨.present _, .object shown, intact, rfl, fun _ => rfl⟩
  | keys =>
    have same : (fun key => (properties key).isSome) =
        fun key => ((original key).isSome || (newData key).isSome) && !deletedProperties key := by
      funext key
      rw [present, visible]
      cases deletedProperties key <;> cases newData key <;> simp
    rw [PlainData.perform, same]
    exact ⟨.keys _, .object shown, intact, rfl, fun _ => rfl⟩

end Object

section Array

variable {original : ArrayContents (PlainData ν)} {newData : Option (ArrayContents (Augmented ν))}
  {contents : ArrayContents (PlainData ν)}

theorem Intact.copied (intact : Intact (.array original newData)) :
    Intact (.array original (some (getData original newData))) := by
  rw [getData_eq intact.filled]
  cases intact with
  | array dense bounded nested shared => exact .array dense bounded nested shared

theorem Intact.delete (intact : Intact (.array original newData)) (key : Key) :
    Intact (.array original (some ((getData original newData).delete key))) := by
  rw [getData_eq intact.filled]
  cases intact with
  | array dense bounded nested shared =>
    have kept : ∀ other view, ((current original newData).delete key).elements other = some view →
        (current original newData).elements other = some view := by
      intro other view found
      by_cases same : other = key
      · simp [ArrayContents.delete, same] at found
      · simpa only [ArrayContents.delete, Function.update_of_ne same] using found
    exact .array dense (bounded.delete key) (fun other view found => nested other view (kept other view found))
      fun other value found => shared other value (kept other _ found)

theorem Intact.resize (intact : Intact (.array original newData)) (length : Nat) :
    Intact (.array original (some ((getData original newData).resize length))) := by
  rw [getData_eq intact.filled]
  cases intact with
  | array dense bounded nested shared =>
    have kept : ∀ other view, ((current original newData).resize length).elements other = some view →
        (current original newData).elements other = some view := by
      intro other view found
      simp only [ArrayContents.resize] at found
      split at found
      · split at found
        · exact found
        · cases found
      · exact found
    exact .array dense (ArrayContents.bounded_resize _ length)
      (fun other view found => nested other view (kept other view found))
      fun other value found => shared other value (kept other _ found)

theorem assignLength_eq {α β : Type} (first : ArrayContents α) (second : ArrayContents β) (value : PlainData ν) :
    ∃ length : Option Nat, assignLength numbers first value = length.map first.resize ∧
      assignLength numbers second value = length.map second.resize := by
  cases value with
  | primitive value => exact ⟨numbers.toLength value, rfl, rfl⟩
  | object => exact ⟨none, rfl, rfl⟩
  | array => exact ⟨none, rfl, rfl⟩

theorem perform_array (intact : Intact (.array original newData))
    (related : (current original newData).Relates Shows contents) (action : Action ν) :
    Mirrors (.array original newData) ((Augmented.array original newData).perform numbers action)
      ((PlainData.array contents).perform numbers false action) := by
  -- Every write copies the array first; the copy shows what was shown before.
  have copy_eq := getData_eq intact.filled newData
  have shown {copy : ArrayContents (Augmented ν)} {expected : ArrayContents (PlainData ν)}
      (related : copy.Relates Shows expected) : Shows (.array original (some copy)) (.array expected) :=
    .array related.length related.elements
  cases action with
  | get key =>
    have read : Reads numbers _ _ key _ _ := reads_array (.array related.length related.elements) intact key
    exact ⟨.value read.child_shows, read.shows, read.intact, read.isProxy, fun _ => read.data_eq⟩
  | set key value =>
    rw [perform, PlainData.perform]
    by_cases isLength : key = lengthKey
    · rw [if_pos isLength, if_pos isLength]
      obtain ⟨length, copy_resized, resized⟩ :=
        @assignLength_eq ν numbers _ _ (getData original newData) contents value.val
      rw [copy_resized, resized]
      cases length with
      | none => exact ⟨.rangeError, shown (copy_eq ▸ related), intact.copied, rfl, fun _ => rfl⟩
      | some length =>
        exact ⟨.done true, shown ((copy_eq ▸ related : (getData original newData).Relates Shows contents).resize
          length), intact.resize length, rfl, fun _ => rfl⟩
    · rw [if_neg isLength, if_neg isLength]
      refine ⟨.done true, shown (copy_eq ▸ related.set key (augment_shows value.val)), ?_, rfl, fun _ => rfl⟩
      exact intact.set key (augment_intact value.property) fun other isPlain => .inl (isPrimitive_of_augment isPlain)
  | delete key =>
    rw [perform, PlainData.perform]
    split
    · exact ⟨.done false, shown (copy_eq ▸ related), intact.copied, rfl, fun _ => rfl⟩
    · exact ⟨.done true, shown (copy_eq ▸ related.delete key), intact.delete key, rfl, fun _ => rfl⟩
  | has key =>
    rw [PlainData.perform, ← rel_isSome (related.elements key)]
    exact ⟨.present _, .array related.length related.elements, intact, rfl, fun _ => rfl⟩
  | keys =>
    have same : (fun key => (contents.elements key).isSome) =
        fun key => ((current original newData).elements key).isSome := by
      funext key
      exact (rel_isSome (related.elements key)).symm
    rw [PlainData.perform, same]
    exact ⟨.keys _, .array related.length related.elements, intact, rfl, fun _ => rfl⟩

end Array

theorem perform_mirrors (shows : Shows receiver data) (intact : Intact receiver)
    (action : Action ν) :
    Mirrors receiver (receiver.perform numbers action)
      (data.perform numbers receiver.isAugmentedObject action) := by
  cases receiver with
  | plain value =>
    obtain rfl := shows_plain_iff.mp shows
    exact mirrors_plain data _
  | object original newData deletedProperties =>
    obtain ⟨properties, rfl, shown⟩ := shows.object_inv
    exact perform_object intact shown action
  | array original newData =>
    obtain ⟨contents, rfl, related⟩ := shows.array_inv
    exact perform_array intact related action

/-! ## Actions at any depth -/

theorem Shows.isPrimitive_eq {view : Augmented ν} (shows : Shows view data) :
    view.data.isPrimitive = data.isPrimitive := by
  cases shows <;> rfl

theorem performAt_nested (isProxy : receiver.isProxy = true)
    (nested : (receiver.get numbers key).1.data.isPrimitive = false) (path : List Key) (action : Action ν) :
    receiver.performAt numbers (key :: path) action =
      (((receiver.get numbers key).1.performAt numbers path action).1,
        (receiver.get numbers key).2.replace key ((receiver.get numbers key).1.performAt numbers path action).2) := by
  have unfolded : receiver.performAt numbers (key :: path) action = match receiver.get numbers key with
      | (.plain (.primitive value), receiver) => (.notAnObject value, receiver)
      | (child, receiver) =>
        ((child.performAt numbers path action).1, receiver.replace key (child.performAt numbers path action).2) := by
    cases receiver with
    | plain => cases isProxy
    | object => rfl
    | array => rfl
  rw [unfolded]
  generalize receiver.get numbers key = read at nested
  obtain ⟨child, changed⟩ := read
  cases child with
  | plain value =>
    cases value with
    | primitive => cases nested
    | object => rfl
    | array => rfl
  | object => rfl
  | array => rfl

theorem performAt_primitive (isProxy : receiver.isProxy = true) {value : Primitive ν}
    (found : (receiver.get numbers key).1 = .plain (.primitive value)) (path : List Key) (action : Action ν) :
    receiver.performAt numbers (key :: path) action = (.notAnObject value, (receiver.get numbers key).2) := by
  generalize read : receiver.get numbers key = outcome at found
  obtain ⟨child, changed⟩ := outcome
  obtain rfl : child = .plain (.primitive value) := found
  cases receiver with
  | plain => cases isProxy
  | object => simp only [performAt, read]
  | array => simp only [performAt, read]

theorem performAt_data_nested (isObject : data.isPrimitive = false)
    (nested : (data.get numbers key).isPrimitive = false) (counted : Bool) (path : List Key) (action : Action ν) :
    data.performAt numbers counted (key :: path) action =
      (((data.get numbers key).performAt numbers counted path action).1,
        data.replace key ((data.get numbers key).performAt numbers counted path action).2) := by
  cases data with
  | primitive => cases isObject
  | object properties =>
    rw [PlainData.performAt]
    · generalize PlainData.get numbers (.object properties) key = child at nested
      cases child with
      | primitive => cases nested
      | object => rfl
      | array => rfl
    · intro value isPrimitive
      cases isPrimitive
  | array contents =>
    rw [PlainData.performAt]
    · generalize PlainData.get numbers (.array contents) key = child at nested
      cases child with
      | primitive => cases nested
      | object => rfl
      | array => rfl
    · intro value isPrimitive
      cases isPrimitive

theorem performAt_data_primitive (isObject : data.isPrimitive = false) {value : Primitive ν}
    (found : data.get numbers key = .primitive value) (counted : Bool) (path : List Key) (action : Action ν) :
    data.performAt numbers counted (key :: path) action = (.notAnObject value, data) := by
  cases data with
  | primitive => cases isObject
  | object => simp only [PlainData.performAt, found]
  | array => simp only [PlainData.performAt, found]

theorem reached_plain (path : List Key) (value : PlainData ν) :
    ((Augmented.plain value).reached numbers path).isAugmentedObject = false := by
  induction path generalizing value with
  | nil => rfl
  | cons key path ih => exact ih (value.get numbers key)

theorem mirrors_replace {receiver changed : Augmented ν} {child : Augmented ν}
    (isObject : data.isPrimitive = false) (read : Reads numbers receiver data key child changed)
    (nested : child.data.isPrimitive = false) {outcome : Answer ν (Augmented ν) × Augmented ν}
    {expected : Answer ν (PlainData ν) × PlainData ν} (mirrors : Mirrors child outcome expected)
    (isProxy : receiver.isProxy = true) :
    Mirrors receiver (outcome.1, changed.replace key outcome.2) (expected.1, data.replace key expected.2) := by
  obtain ⟨_, _, shows, intact, changedProxy, data_eq, holds⟩ := read
  have kept := holds nested
  -- The receiver has been read, so that it is a proxy and keeps the child at the key.
  cases changed with
  | plain => cases changedProxy
  | object original newData deletedProperties =>
    obtain ⟨notDeleted, found⟩ := kept
    obtain ⟨properties, rfl, shown⟩ := shows.object_inv
    refine ⟨mirrors.agrees, shows_update shown notDeleted mirrors.shows,
      intact.update key ?_ ?_ deletedProperties, isProxy.symm, fun _ => data_eq⟩
    · rintro _ ⟨⟩
      exact mirrors.intact
    · -- What comes back is a proxy of the same data as the child before.
      rintro _ ⟨⟩ childProxy
      rw [mirrors.isProxy_eq] at childProxy
      rw [mirrors.data_eq childProxy]
      cases intact with
      | object _ _ shared => exact shared key child found childProxy
  | array original newData =>
    obtain ⟨childProxy, copy, rfl, found⟩ := kept
    obtain ⟨contents, rfl, related⟩ := shows.array_inv
    refine ⟨mirrors.agrees, .array related.length (rel_update related.elements key (.some mirrors.shows)), ?_,
      isProxy.symm, fun _ => data_eq⟩
    refine intact.withElement (fun bounded other index isIndex present => bounded other index isIndex ?_) rfl
      mirrors.intact fun value isPlain => ?_
    · by_cases same : other = key
      · rw [same]
        exact found ▸ rfl
      · simpa [current, Function.update_of_ne same] using present
    · rw [← mirrors.isProxy_eq, isPlain] at childProxy
      cases childProxy

theorem performAt_mirrors (action : Action ν) (path : List Key) : ∀ {receiver : Augmented ν} {data : PlainData ν},
    Shows receiver data → Intact receiver → Mirrors receiver (receiver.performAt numbers path action)
      (data.performAt numbers (receiver.reached numbers path).isAugmentedObject path action) := by
  induction path with
  | nil => exact fun shows intact => perform_mirrors shows intact action
  | cons key path ih =>
    intro receiver data shows intact
    by_cases isProxy : receiver.isProxy = true
    · have read : Reads numbers receiver data key _ _ := reads shows intact isProxy key
      have isObject : data.isPrimitive = false := by
        rw [← shows.isPrimitive_eq]
        cases receiver with
        | plain => cases isProxy
        | object => rfl
        | array => rfl
      have sameKind := read.child_shows.isPrimitive_eq
      -- A primitive on the way ends the walk, on the proxy and on the copy.
      by_cases nested : (receiver.get numbers key).1.data.isPrimitive = false
      · rw [performAt_nested isProxy nested, performAt_data_nested isObject (sameKind ▸ nested)]
        exact mirrors_replace isObject read nested (ih read.child_shows read.child_intact) isProxy
      · obtain ⟨value, isPrimitive⟩ : ∃ value, (receiver.get numbers key).1 = .plain (.primitive value) := by
          generalize (receiver.get numbers key).1 = child at nested
          cases child with
          | plain value =>
            cases value with
            | primitive value => exact ⟨value, rfl⟩
            | object => exact absurd rfl nested
            | array => exact absurd rfl nested
          | object => exact absurd rfl nested
          | array => exact absurd rfl nested
        have child_shows := read.child_shows
        rw [isPrimitive, shows_plain_iff] at child_shows
        rw [performAt_primitive isProxy isPrimitive, performAt_data_primitive isObject child_shows]
        exact ⟨.notAnObject value, read.shows, read.intact, read.isProxy.trans isProxy.symm, fun _ => read.data_eq⟩
    · cases receiver with
      | plain value =>
        obtain rfl := shows_plain_iff.mp shows
        rw [reached_plain]
        exact mirrors_plain data _
      | object => exact absurd rfl isProxy
      | array => exact absurd rfl isProxy

/-! ## Runs -/

structure Operation (ν : Type) where
  path : List Key
  action : Action ν

def run (numbers : NumberSystem ν) : List (Operation ν) → Augmented ν →
    List (Answer ν (Augmented ν)) × Augmented ν
  | [], receiver => ([], receiver)
  | operation :: operations, receiver =>
    let (answer, changed) := receiver.performAt numbers operation.path operation.action
    let (answers, final) := run numbers operations changed
    (answer :: answers, final)

/-- The same operations on a copy; `counts` tells, of what the path leads to in the augmented data,
whether assigning `undefined` to a key there counts as deleting the key. -/
def runCopy (numbers : NumberSystem ν) (counts : Augmented ν → Bool) : List (Operation ν) → Augmented ν →
    PlainData ν → List (Answer ν (PlainData ν)) × PlainData ν
  | [], _, copy => ([], copy)
  | operation :: operations, receiver, copy =>
    let (answer, changed) := copy.performAt numbers (counts (receiver.reached numbers operation.path))
      operation.path operation.action
    let (answers, final) := runCopy numbers counts operations
      (receiver.performAt numbers operation.path operation.action).2 changed
    (answer :: answers, final)

/-- Augmented data answers as a copy does, and the original stays as it is. -/
structure BehavesLikeCopy (numbers : NumberSystem ν) (counts : Augmented ν → Bool) (original : PlainData ν)
    (operations : List (Operation ν)) : Prop where
  answers : List.Forall₂ (Answer.Agrees Shows) (run numbers operations (augment original)).1
    (runCopy numbers counts operations (augment original) original).1
  unchanged : (run numbers operations (augment original)).2.data = original
  intact : Intact (run numbers operations (augment original)).2

theorem run_mirrors (operations : List (Operation ν)) : ∀ {receiver : Augmented ν} {data : PlainData ν},
    Shows receiver data → Intact receiver →
      List.Forall₂ (Answer.Agrees Shows) (run numbers operations receiver).1
        (runCopy numbers isAugmentedObject operations receiver data).1 ∧
      Intact (run numbers operations receiver).2 ∧
      (receiver.isProxy = true → (run numbers operations receiver).2.data = receiver.data) := by
  induction operations with
  | nil => exact fun _ intact => ⟨.nil, intact, fun _ => rfl⟩
  | cons operation operations ih =>
    intro receiver data shows intact
    have mirrors : Mirrors receiver (receiver.performAt numbers operation.path operation.action)
        (data.performAt numbers (receiver.reached numbers operation.path).isAugmentedObject operation.path
          operation.action) := performAt_mirrors operation.action operation.path shows intact
    obtain ⟨agree, finalIntact, kept⟩ := ih mirrors.shows mirrors.intact
    refine ⟨.cons mirrors.agrees agree, finalIntact, fun isProxy => ?_⟩
    exact (kept (mirrors.isProxy_eq.trans isProxy)).trans (mirrors.data_eq isProxy)

theorem run_primitive (operations : List (Operation ν)) (value : Primitive ν) :
    (run numbers operations (.plain (.primitive value))).2 = .plain (.primitive value) := by
  induction operations with
  | nil => rfl
  | cons operation operations ih =>
    obtain ⟨path, action⟩ := operation
    cases path with
    | nil => exact ih
    | cons key path => exact ih

/-- Augmented data behaves like a copy, where assigning `undefined` to a key of an augmented object
counts as deleting it. -/
theorem augment_behavesLikeCopy (numbers : NumberSystem ν) (original : DenseData ν)
    (operations : List (Operation ν)) :
    BehavesLikeCopy numbers isAugmentedObject original.val operations := by
  obtain ⟨original, dense⟩ := original
  obtain ⟨agree, intact, kept⟩ := run_mirrors operations (augment_shows original) (augment_intact dense)
  refine ⟨agree, ?_, intact⟩
  cases original with
  | primitive value => exact congrArg Augmented.data (run_primitive operations value)
  | object => exact kept rfl
  | array => exact kept rfl

end Augmented

namespace Augmented.AssignedObject

def naturals : NumberSystem Nat where
  ofLength := id
  isNaN := fun _ => false
  toLength := fun _ => none

def outer : Key := ⟨"a", by decide⟩
def inner : Key := ⟨"b", by decide⟩

def assigned : DenseData Nat where
  val := .object (Function.update (fun _ => none) inner (some (.primitive (.number 1))))
  property := by
    refine .object fun key child found => ?_
    by_cases same : key = inner
    · rw [same, Function.update_self, Option.some.injEq] at found
      exact found ▸ .primitive _
    · rw [Function.update_of_ne same] at found
      cases found

def original : DenseData Nat where
  val := .object fun _ => none
  property := .object fun key child found => by cases found

/-- `data.a = { b: 1 }`, `data.a.b = undefined`, `'b' in data.a`. -/
def operations : List (Operation Nat) :=
  [⟨[], .set outer assigned⟩, ⟨[outer], .set inner ⟨.undefined, .primitive _⟩⟩, ⟨[outer], .has inner⟩]

/-- The assigned object keeps the key, a copy that counts the assignment as deletion does not. -/
theorem not_behavesLikeCopy : ¬ BehavesLikeCopy naturals (fun _ => true) original.val operations := by
  intro behaves
  have answers := behaves.answers
  have augmentedAnswers : (run naturals operations (augment original.val)).1 =
      [.done true, .done true, .present true] := by rfl
  have copyAnswers : (runCopy naturals (fun _ => true) operations (augment original.val) original.val).1 =
      [.done true, .done true, .present false] := by rfl
  rw [augmentedAnswers, copyAnswers] at answers
  cases answers with
  | cons _ answers => cases answers with
    | cons _ answers => cases answers with
      | cons agree => cases agree

end Augmented.AssignedObject

end N8n
