import N8n.Library.OrderedMap
import N8n.Library.PlainData

/-! # Static data

`ObservableObject.ts` wraps the static data of a workflow in proxies that set
`__dataChanged` at the root, `Workflow.getStaticData` hands out its first level,
and `workflow-static-data.service.ts` writes it and resets the flag.  Objects that
are assigned later are not wrapped.  An observable object is only ever referred to
through its proxy, so being observable is a property of the object.
-/

namespace N8n.StaticData

open PlainData

/-- A value in the memory: a primitive or a reference to an object. -/
inductive Slot (ν : Type) where
  | primitive (value : Primitive ν)
  | reference (address : Nat)

inductive Cell (ν : Type) where
  | object (properties : OrderedMap Key (Slot ν))
  | array (contents : ArrayContents (Slot ν))

namespace Cell

variable {ν : Type}

def property? : Cell ν → Key → Option (Slot ν)
  | .object properties, key => properties.get? key
  | .array contents, key => contents.elements key

/-- `Reflect.set`. -/
def set (numbers : NumberSystem ν) : Cell ν → Key → Slot ν → Cell ν
  | .object properties, key, value => .object (properties.set key value)
  | .array contents, key, value =>
    if key = lengthKey then
      match value with
      | .primitive value => .array (((numbers.toLength value).map contents.resize).getD contents)
      | .reference _ => .array contents
    else .array (contents.set key value)

/-- `Reflect.deleteProperty`. -/
def delete : Cell ν → Key → Cell ν
  | .object properties, key => .object (properties.erase key)
  | .array contents, key => if key = lengthKey then .array contents else .array (contents.delete key)

/-- `Object.keys(value).length === 0`. -/
def isEmpty : Cell ν → Bool
  | .object properties => properties.size = 0
  | .array contents => contents.length = 0

end Cell

/-- What a path into a value ends at. -/
inductive Leaf (ν : Type) where
  | primitive (value : Primitive ν)
  | object
  | array (length : Nat)

/-- A value, given by what its paths end at. -/
abbrev Value (ν : Type) := List Key → Option (Leaf ν)

section Memory

variable {ν : Type}

def follow (heap : Nat → Cell ν) : List Key → Slot ν → Option (Slot ν)
  | [], slot => some slot
  | _ :: _, .primitive _ => none
  | key :: path, .reference address => ((heap address).property? key).bind (follow heap path)

def leaf (heap : Nat → Cell ν) : Slot ν → Leaf ν
  | .primitive value => .primitive value
  | .reference address => match heap address with
    | .object _ => .object
    | .array contents => .array contents.length

def value (heap : Nat → Cell ν) (slot : Slot ν) : Value ν := fun path => (follow heap path slot).map (leaf heap)

end Memory

/-- Static data as it is loaded; no object in it refers to the root. -/
structure StoredData (ν : Type) where
  heap : Nat → Cell ν
  size : Nat
  rootInside : 0 < size
  isObject : ∃ properties, heap 0 = .object properties
  inside : ∀ address key target, (heap address).property? key = some (.reference target) → 0 < target ∧ target < size

/-- The objects that the workflow and the program running in it have, and the writes under way. -/
structure State (ν : Type) where
  heap : Nat → Cell ν
  size : Nat
  isObservable : Nat → Bool
  /-- `__dataChanged` of the root. -/
  dataChanged : Bool
  isWorkflowIdValid : Bool
  /-- The values that the program has got hold of. -/
  handles : List (Slot ν)
  /-- What the writes that have not returned yet have captured. -/
  writes : List (Value ν)
  lastWritten : Value ν

inductive Operand (ν : Type) where
  | primitive (value : Primitive ν)
  | handle (index : Nat)

inductive Event (ν : Type) where
  | getStaticData (key : Key)
  | read (handle : Nat) (key : Key)
  | newObject
  | newArray
  | assign (handle : Nat) (key : Key) (operand : Operand ν)
  | delete (handle : Nat) (key : Key)
  | saveStaticData
  | written (write : Nat)
  | failed (write : Nat)

def Event.isChange {ν : Type} : Event ν → Bool
  | .assign _ _ _ => true
  | .delete _ _ => true
  | _ => false

namespace State

variable {ν : Type}

def root : Slot ν := .reference 0

def data (state : State ν) : Value ν := value state.heap root

/-- `ObservableObject.create` of the static data: every object in it becomes observable. -/
def create (stored : StoredData ν) (isWorkflowIdValid : Bool) : State ν where
  heap := stored.heap
  size := stored.size
  isObservable := fun address => address < stored.size
  dataChanged := false
  isWorkflowIdValid := isWorkflowIdValid
  handles := []
  writes := []
  lastWritten := value stored.heap root

def handle (state : State ν) (index : Nat) : Slot ν := state.handles.getD index (.primitive .undefined)

def operand (state : State ν) : Operand ν → Slot ν
  | .primitive value => .primitive value
  | .handle index => state.handle index

def allocate (state : State ν) (cell : Cell ν) (observable : Bool) : State ν :=
  { state with
    heap := Function.update state.heap state.size cell
    size := state.size + 1
    isObservable := Function.update state.isObservable state.size observable }

def isUndefined : Option (Slot ν) → Bool
  | none => true
  | some (.primitive .undefined) => true
  | _ => false

/-- The `set` trap of the root, which has the option `ignoreEmptyOnFirstChild`. -/
def setRoot (state : State ν) (numbers : NumberSystem ν) (key : Key) (address : Nat) : State ν :=
  let ignored := isUndefined ((state.heap 0).property? key) && (state.heap address).isEmpty
  { state with
    dataChanged := if ignored then state.dataChanged else true
    heap := Function.update state.heap 0 ((state.heap 0).set numbers key (.reference address)) }

def getStaticData (state : State ν) (numbers : NumberSystem ν) (key : Key) : State ν :=
  let state := if isUndefined ((state.heap 0).property? key) then
      (state.allocate (.object ∅) true).setRoot numbers key state.size
    else state
  { state with handles := state.handles ++ [((state.heap 0).property? key).getD (.primitive .undefined)] }

/-- The `set` and `deleteProperty` traps below the root mark the root before they change the target;
an object that is not observable has no traps. -/
def change (state : State ν) (address : Nat) (cell : Cell ν) : State ν :=
  { state with
    dataChanged := if state.isObservable address then true else state.dataChanged
    heap := Function.update state.heap address cell }

def step (numbers : NumberSystem ν) (state : State ν) : Event ν → State ν
  | .getStaticData key => state.getStaticData numbers key
  | .read handle key =>
    match state.handle handle with
    | .primitive _ => state
    | .reference address =>
      { state with
        handles := state.handles ++ [((state.heap address).property? key).getD (.primitive .undefined)] }
  | .newObject =>
    { state.allocate (.object ∅) false with handles := state.handles ++ [.reference state.size] }
  | .newArray =>
    { state.allocate (.array ⟨0, fun _ => none⟩) false with handles := state.handles ++ [.reference state.size] }
  | .assign handle key operand =>
    match state.handle handle with
    | .primitive _ => state
    | .reference address => state.change address ((state.heap address).set numbers key (state.operand operand))
  | .delete handle key =>
    match state.handle handle with
    | .primitive _ => state
    | .reference address => state.change address ((state.heap address).delete key)
  | .saveStaticData =>
    if state.dataChanged && state.isWorkflowIdValid then { state with writes := state.writes ++ [state.data] }
    else state
  | .written write =>
    match state.writes[write]? with
    | none => state
    | some captured =>
      { state with
        writes := state.writes.eraseIdx write
        lastWritten := captured
        dataChanged := false }
  | .failed write => { state with writes := state.writes.eraseIdx write }

def run (numbers : NumberSystem ν) : List (Event ν) → State ν → State ν
  | [], state => state
  | event :: events, state => run numbers events (state.step numbers event)

/-! ## Values that differ by empty objects -/

def IsAbsent : Option (Leaf ν) → Prop
  | none => True
  | some (.primitive .undefined) => True
  | _ => False

/-- The second value is the first one with empty objects at some keys that the first one does not have. -/
structure AddsEmptyObjects (before after : Value ν) : Prop where
  root : after [] = before []
  entries : ∀ key, (∀ path, after (key :: path) = before (key :: path)) ∨
    IsAbsent (before [key]) ∧ after [key] = some .object ∧ ∀ next path, after (key :: next :: path) = none

theorem AddsEmptyObjects.refl (value : Value ν) : AddsEmptyObjects value value where
  root := rfl
  entries := fun _ => .inl fun _ => rfl

theorem AddsEmptyObjects.trans {first second third : Value ν} (before : AddsEmptyObjects first second)
    (after : AddsEmptyObjects second third) : AddsEmptyObjects first third where
  root := after.root.trans before.root
  entries := by
    intro key
    cases after.entries key with
    | inl same =>
      cases before.entries key with
      | inl sameBefore => exact .inl fun path => (same path).trans (sameBefore path)
      | inr added =>
        obtain ⟨absent, isObject, nothing⟩ := added
        exact .inr ⟨absent, (same []).trans isObject, fun next path => (same _).trans (nothing next path)⟩
    | inr added =>
      cases before.entries key with
      | inl sameBefore => exact .inr ⟨sameBefore [] ▸ added.1, added.2⟩
      | inr addedBefore =>
        have absent := added.1
        rw [addedBefore.2.1] at absent
        cases absent

/-! ## What changes of the memory leave of a value -/

theorem value_cons (heap : Nat → Cell ν) (address : Nat) (key : Key) (path : List Key) :
    value heap (.reference address) (key :: path) =
      ((heap address).property? key).bind fun next => value heap next path := by
  simp only [value, follow]
  cases (heap address).property? key <;> rfl

variable {slot : Slot ν}

theorem value_congr {heap heap' : Nat → Cell ν} (inside : Nat → Prop)
    (agree : ∀ address, inside address → heap' address = heap address)
    (closed : ∀ address, inside address → ∀ key target,
      (heap address).property? key = some (.reference target) → inside target)
    (start : ∀ address, slot = .reference address → inside address) : value heap' slot = value heap slot := by
  funext path
  induction path generalizing slot with
  | nil =>
    cases slot with
    | primitive => rfl
    | reference address =>
      have sameLeaf : leaf heap' (.reference address) = leaf heap (.reference address) := by
        rw [leaf, leaf, agree address (start address rfl)]
      exact congrArg some sameLeaf
  | cons key path ih =>
    cases slot with
    | primitive => rfl
    | reference address =>
      have here := start address rfl
      rw [value_cons, value_cons, agree address here]
      cases found : (heap address).property? key with
      | none => rfl
      | some next => exact ih fun target isTarget => closed address here key target (isTarget ▸ found)

/-- The static data has the object. -/
def Reaches (state : State ν) (address : Nat) : Prop := ∃ path, follow state.heap path root = some (.reference address)

variable {address : Nat}

theorem follow_snoc {heap : Nat → Cell ν} {path : List Key}
    (reached : follow heap path slot = some (.reference address)) (key : Key) :
    follow heap (path ++ [key]) slot = (heap address).property? key := by
  induction path generalizing slot with
  | nil =>
    obtain rfl := Option.some.inj reached
    show ((heap address).property? key).bind (fun next => some next) = _
    cases (heap address).property? key <;> rfl
  | cons first path ih =>
    cases slot with
    | primitive => cases reached
    | reference start =>
      obtain ⟨next, found, further⟩ := Option.bind_eq_some_iff.mp reached
      show ((heap start).property? first).bind (follow heap (path ++ [key])) = _
      rw [found]
      exact ih further

variable {state : State ν}

theorem data_of_unreached (unreached : ¬ state.Reaches address) (cell : Cell ν) :
    value (Function.update state.heap address cell) root = state.data := by
  refine value_congr state.Reaches (fun other reached => ?_) (fun other reached key target found => ?_)
    fun other isRoot => ⟨[], by rw [isRoot]; rfl⟩
  · have different : other ≠ address := by
      rintro rfl
      exact unreached reached
    exact Function.update_of_ne different _ _
  · obtain ⟨path, follows⟩ := reached
    exact ⟨path ++ [key], (follow_snoc follows key).trans found⟩

/-! ## Every change is flagged -/

/-- What holds between two events of a run in which changes are made where they can be seen. -/
structure Consistent (state : State ν) : Prop where
  rootInside : 0 < state.size
  isObject : ∃ properties, state.heap 0 = .object properties
  inside : ∀ address key target, (state.heap address).property? key = some (.reference target) →
    0 < target ∧ target < state.size
  handlesInside : ∀ slot ∈ state.handles, ∀ target, slot = .reference target → 0 < target ∧ target < state.size
  written : state.dataChanged = false → AddsEmptyObjects state.lastWritten state.data
  underWay : ∀ captured ∈ state.writes, AddsEmptyObjects captured state.data

/-- A change that can be seen: of an observable object while no write is under way, or of an object that is
not part of the static data. -/
def IsSeen (state : State ν) : Event ν → Prop
  | .assign handle _ _ | .delete handle _ => ∀ address, state.handle handle = .reference address →
      if state.isObservable address then state.writes = [] else ¬ state.Reaches address
  | _ => True

def AllSeen (numbers : NumberSystem ν) : List (Event ν) → State ν → Prop
  | [], _ => True
  | event :: events, state => state.IsSeen event ∧ AllSeen numbers events (state.step numbers event)

theorem property?_set (numbers : NumberSystem ν) (cell : Cell ν) (key : Key) (value : Slot ν) {other : Key}
    {found : Slot ν} (isProperty : (cell.set numbers key value).property? other = some found) :
    found = value ∨ cell.property? other = some found := by
  cases cell with
  | object properties =>
    simp only [Cell.set, Cell.property?, OrderedMap.get?_set] at isProperty
    split at isProperty
    · exact .inl (Option.some.inj isProperty).symm
    · exact .inr isProperty
  | array contents =>
    by_cases isLength : key = lengthKey
    · refine .inr ?_
      cases value with
      | reference =>
        simpa only [Cell.set, if_pos isLength] using isProperty
      | primitive value =>
        simp only [Cell.set, if_pos isLength] at isProperty
        cases length : numbers.toLength value with
        | none => rwa [length] at isProperty
        | some length' =>
          rw [length] at isProperty
          simp only [Option.map_some, Option.getD_some, Cell.property?, ArrayContents.resize] at isProperty
          split at isProperty
          · split at isProperty
            · exact isProperty
            · cases isProperty
          · exact isProperty
    · have assigned : (Cell.array contents).set numbers key value = .array (contents.set key value) := by
        cases value <;> simp only [Cell.set, if_neg isLength]
      rw [assigned] at isProperty
      by_cases same : other = key
      · simp only [Cell.property?, ArrayContents.set, same, Function.update_self] at isProperty
        exact .inl (Option.some.inj isProperty).symm
      · simp only [Cell.property?, ArrayContents.set, Function.update_of_ne same] at isProperty
        exact .inr isProperty

theorem property?_delete (cell : Cell ν) (key : Key) {other : Key} {found : Slot ν}
    (isProperty : (cell.delete key).property? other = some found) : cell.property? other = some found := by
  cases cell with
  | object properties =>
    have different : other ≠ key := by
      rintro rfl
      simp [Cell.delete, Cell.property?] at isProperty
    simpa [Cell.delete, Cell.property?, OrderedMap.get?_erase_of_ne _ different] using isProperty
  | array contents =>
    rw [Cell.delete] at isProperty
    split at isProperty
    · exact isProperty
    · by_cases same : other = key
      · simp [Cell.property?, ArrayContents.delete, same] at isProperty
      · simpa [Cell.property?, ArrayContents.delete, Function.update_of_ne same] using isProperty

theorem handle_inside (consistent : state.Consistent) {index address : Nat}
    (isHandle : state.handle index = .reference address) : 0 < address ∧ address < state.size := by
  rw [handle, List.getD_eq_getElem?_getD] at isHandle
  cases found : state.handles[index]? with
  | none => rw [found] at isHandle; cases isHandle
  | some slot =>
    rw [found] at isHandle
    exact consistent.handlesInside slot (List.mem_of_getElem? found) address isHandle

theorem Consistent.change (consistent : state.Consistent) {cell : Cell ν} (notRoot : 0 < address)
    (seen : if state.isObservable address then state.writes = [] else ¬ state.Reaches address)
    (inside : ∀ key target, cell.property? key = some (.reference target) → 0 < target ∧ target < state.size) :
    (state.change address cell).Consistent := by
  have isObject : ∃ properties, (state.change address cell).heap 0 = .object properties := by
    obtain ⟨properties, isObject⟩ := consistent.isObject
    exact ⟨properties, (Function.update_of_ne (Nat.ne_of_lt notRoot) _ _).trans isObject⟩
  have allInside : ∀ other key target, ((Function.update state.heap address cell) other).property? key =
      some (.reference target) → 0 < target ∧ target < state.size := by
    intro other key target found
    by_cases same : other = address
    · rw [same, Function.update_self] at found
      exact inside key target found
    · rw [Function.update_of_ne same] at found
      exact consistent.inside other key target found
  by_cases observable : state.isObservable address = true
  · rw [if_pos observable] at seen
    refine ⟨consistent.rootInside, isObject, allInside, consistent.handlesInside, ?_, ?_⟩
    · intro unchanged
      simp [State.change, observable] at unchanged
    · intro captured member
      rw [show (state.change address cell).writes = state.writes from rfl, seen] at member
      cases member
  · rw [if_neg observable] at seen
    have sameData : (state.change address cell).data = state.data := data_of_unreached seen cell
    refine ⟨consistent.rootInside, isObject, allInside, consistent.handlesInside, ?_, ?_⟩
    · intro unchanged
      rw [sameData]
      exact consistent.written (by simpa [State.change, observable] using unchanged)
    · intro captured member
      rw [sameData]
      exact consistent.underWay captured member

theorem Consistent.hold (consistent : state.Consistent)
    (slotInside : ∀ target, slot = .reference target → 0 < target ∧ target < state.size) :
    { state with handles := state.handles ++ [slot] }.Consistent where
  rootInside := consistent.rootInside
  isObject := consistent.isObject
  inside := consistent.inside
  handlesInside := by
    intro other member
    cases List.mem_append.mp member with
    | inl old => exact consistent.handlesInside other old
    | inr new => exact List.mem_singleton.mp new ▸ slotInside
  written := consistent.written
  underWay := consistent.underWay

theorem Consistent.read_inside (consistent : state.Consistent) (address : Nat) (key : Key) (target : Nat)
    (isTarget : ((state.heap address).property? key).getD (.primitive .undefined) = .reference target) :
    0 < target ∧ target < state.size := by
  cases found : (state.heap address).property? key with
  | none => rw [found] at isTarget; cases isTarget
  | some slot =>
    rw [found] at isTarget
    exact consistent.inside address key target (found.trans (congrArg some isTarget))

theorem Consistent.allocate (consistent : state.Consistent) {cell : Cell ν} (empty : ∀ key, cell.property? key = none)
    (observable : Bool) :
    (state.allocate cell observable).Consistent ∧ (state.allocate cell observable).data = state.data := by
  have oldCell : ∀ address, address < state.size → (state.allocate cell observable).heap address =
      state.heap address := fun address below => Function.update_of_ne (Nat.ne_of_lt below) _ _
  have sameData : (state.allocate cell observable).data = state.data := by
    refine value_congr (· < state.size) oldCell (fun address _ key target found => ?_) ?_
    · exact (consistent.inside address key target found).2
    · intro address isRoot
      cases isRoot
      exact consistent.rootInside
  refine ⟨⟨Nat.succ_pos _, ?_, fun address key target found => ?_, fun slot member target isTarget => ?_, ?_, ?_⟩,
    sameData⟩
  · rw [oldCell 0 consistent.rootInside]
    exact consistent.isObject
  · by_cases isNew : address = state.size
    · rw [isNew, show (state.allocate cell observable).heap state.size = cell from Function.update_self _ _ _,
        empty] at found
      cases found
    · rw [show (state.allocate cell observable).heap address = state.heap address from
        Function.update_of_ne isNew _ _] at found
      have := consistent.inside address key target found
      exact ⟨this.1, Nat.lt_succ_of_lt this.2⟩
  · have := consistent.handlesInside slot member target isTarget
    exact ⟨this.1, Nat.lt_succ_of_lt this.2⟩
  · rw [sameData]
    exact consistent.written
  · rw [sameData]
    exact consistent.underWay

theorem isAbsent_of_isUndefined {heap : Nat → Cell ν} {slot : Option (Slot ν)} (undefined : isUndefined slot = true) :
    IsAbsent (slot.bind fun next => value heap next []) := by
  cases slot with
  | none => trivial
  | some slot =>
    cases slot with
    | reference => cases undefined
    | primitive value =>
      cases value with
      | undefined => trivial
      | null => cases undefined
      | boolean => cases undefined
      | number => cases undefined
      | string => cases undefined

/-- A first level entry that is created is an empty object where the data had nothing, and is ignored. -/
theorem Consistent.setRoot (consistent : state.Consistent) (numbers : NumberSystem ν) {key : Key}
    (undefined : isUndefined ((state.heap 0).property? key) = true) (isNew : state.heap address = .object ∅)
    (addressInside : 0 < address ∧ address < state.size) :
    (state.setRoot numbers key address).Consistent ∧
      (state.setRoot numbers key address).dataChanged = state.dataChanged := by
  obtain ⟨properties, isObject⟩ := consistent.isObject
  have newRoot : (state.setRoot numbers key address).heap 0 = .object (properties.set key (.reference address)) := by
    have assigned : (state.heap 0).set numbers key (.reference address) =
        .object (properties.set key (.reference address)) := by rw [isObject]; rfl
    simp [State.setRoot, assigned]
  have oldCell : ∀ other, 0 < other → (state.setRoot numbers key address).heap other = state.heap other :=
    fun other positive => Function.update_of_ne (Nat.ne_of_gt positive) _ _
  have unflagged : (state.setRoot numbers key address).dataChanged = state.dataChanged := by
    have ignored : (isUndefined ((state.heap 0).property? key) && (state.heap address).isEmpty) = true := by
      rw [undefined, isNew]
      rfl
    exact if_pos ignored
  have added : AddsEmptyObjects state.data (state.setRoot numbers key address).data := by
    have sameRoot : state.data [] = some .object := congrArg some (by rw [root, leaf, isObject])
    have sameNewRoot : (state.setRoot numbers key address).data [] = some .object :=
      congrArg some (by rw [root, leaf, newRoot])
    have entry (other : Key) (path : List Key) : state.data (other :: path) =
        (properties.get? other).bind fun next => value state.heap next path := by
      rw [data, root, value_cons, isObject]
      rfl
    have newEntry (other : Key) (path : List Key) : (state.setRoot numbers key address).data (other :: path) =
        ((properties.set key (.reference address)).get? other).bind fun next =>
          value (state.setRoot numbers key address).heap next path := by
      rw [data, root, value_cons, newRoot]
      rfl
    refine ⟨sameNewRoot.trans sameRoot.symm, fun other => ?_⟩
    by_cases same : other = key
    · obtain rfl := same
      refine .inr ⟨?_, ?_, fun next path => ?_⟩
      · rw [entry]
        rw [isObject] at undefined
        exact isAbsent_of_isUndefined undefined
      · rw [newEntry, OrderedMap.get?_set_self]
        exact congrArg some (by rw [leaf, oldCell address addressInside.1, isNew])
      · rw [newEntry, OrderedMap.get?_set_self, Option.bind_some, value_cons, oldCell address addressInside.1, isNew]
        rfl
    · refine .inl fun path => ?_
      rw [newEntry, entry, OrderedMap.get?_set_of_ne _ _ same]
      cases found : properties.get? other with
      | none => rfl
      | some next =>
        -- nothing below the root refers to the root
        refine congrFun (value_congr (fun address => 0 < address) oldCell (fun address _ key target found =>
          ?_) ?_) path
        · exact (consistent.inside address key target found).1
        · intro target isTarget
          refine (consistent.inside 0 other target ?_).1
          rw [isObject]
          exact isTarget ▸ found
  refine ⟨⟨consistent.rootInside, ⟨_, newRoot⟩, fun other name target found => ?_, consistent.handlesInside, ?_, ?_⟩,
    unflagged⟩
  · by_cases isRoot : other = 0
    · rw [isRoot, newRoot] at found
      simp only [Cell.property?, OrderedMap.get?_set] at found
      split at found
      · cases found
        exact addressInside
      · refine consistent.inside 0 name target ?_
        rw [isObject]
        exact found
    · rw [oldCell other (Nat.pos_of_ne_zero isRoot)] at found
      exact consistent.inside other name target found
  · rw [unflagged]
    exact fun unchanged => (consistent.written unchanged).trans added
  · exact fun captured member => (consistent.underWay captured member).trans added

theorem Consistent.getStaticData (consistent : state.Consistent) (numbers : NumberSystem ν) (key : Key) :
    (state.getStaticData numbers key).Consistent ∧
      (state.getStaticData numbers key).dataChanged = state.dataChanged := by
  rw [State.getStaticData]
  by_cases undefined : isUndefined ((state.heap 0).property? key) = true
  · rw [if_pos undefined]
    have empty : ∀ name, (Cell.object ∅ : Cell ν).property? name = none := fun _ => rfl
    have allocated := (consistent.allocate empty true).1
    have sameRoot : (state.allocate (.object ∅) true).heap 0 = state.heap 0 :=
      Function.update_of_ne (Nat.ne_of_lt consistent.rootInside) _ _
    obtain ⟨created, unflagged⟩ := allocated.setRoot numbers (sameRoot.symm ▸ undefined)
      (Function.update_self _ _ _) ⟨consistent.rootInside, Nat.lt_succ_self _⟩
    exact ⟨created.hold (created.read_inside 0 key), unflagged⟩
  · rw [if_neg undefined]
    exact ⟨consistent.hold (consistent.read_inside 0 key), rfl⟩

theorem Consistent.step {state : State ν} (consistent : state.Consistent) (numbers : NumberSystem ν)
    {event : Event ν} (seen : state.IsSeen event) : (state.step numbers event).Consistent := by
  cases event with
  | getStaticData key => exact (consistent.getStaticData numbers key).1
  | read handle key =>
    rw [State.step]
    cases state.handle handle with
    | primitive => exact consistent
    | reference address => exact consistent.hold (consistent.read_inside address key)
  | newObject =>
    have empty : ∀ name, (Cell.object ∅ : Cell ν).property? name = none := fun _ => rfl
    refine ((consistent.allocate empty false).1.hold fun target isTarget => ?_)
    cases isTarget
    exact ⟨consistent.rootInside, Nat.lt_succ_self _⟩
  | newArray =>
    have empty : ∀ name, (Cell.array ⟨0, fun _ => none⟩ : Cell ν).property? name = none := fun _ => rfl
    refine ((consistent.allocate empty false).1.hold fun target isTarget => ?_)
    cases isTarget
    exact ⟨consistent.rootInside, Nat.lt_succ_self _⟩
  | assign handle key operand =>
    rw [State.step]
    cases isHandle : state.handle handle with
    | primitive => exact consistent
    | reference address =>
      refine consistent.change (handle_inside consistent isHandle).1
        (seen address isHandle) fun other target found => ?_
      cases property?_set numbers _ key _ found with
      | inl isValue =>
        cases operand with
        | primitive => cases isValue
        | handle index => exact handle_inside consistent isValue.symm
      | inr old => exact consistent.inside address other target old
  | delete handle key =>
    rw [State.step]
    cases isHandle : state.handle handle with
    | primitive => exact consistent
    | reference address =>
      exact consistent.change (handle_inside consistent isHandle).1 (seen address isHandle) fun other target found =>
        consistent.inside address other target (property?_delete _ key found)
  | saveStaticData =>
    rw [State.step]
    split
    · refine ⟨consistent.rootInside, consistent.isObject, consistent.inside, consistent.handlesInside,
        consistent.written, fun captured member => ?_⟩
      cases List.mem_append.mp member with
      | inl old => exact consistent.underWay captured old
      | inr new => exact List.mem_singleton.mp new ▸ .refl _
    · exact consistent
  | written write =>
    rw [State.step]
    cases found : state.writes[write]? with
    | none => exact consistent
    | some captured =>
      exact ⟨consistent.rootInside, consistent.isObject, consistent.inside, consistent.handlesInside,
        fun _ => consistent.underWay captured (List.mem_of_getElem? found),
        fun other member => consistent.underWay other (List.mem_of_mem_eraseIdx member)⟩
  | failed write =>
    exact ⟨consistent.rootInside, consistent.isObject, consistent.inside, consistent.handlesInside,
      consistent.written, fun other member => consistent.underWay other (List.mem_of_mem_eraseIdx member)⟩

theorem Consistent.run (numbers : NumberSystem ν) (events : List (Event ν)) : ∀ {state : State ν},
    state.Consistent → state.AllSeen numbers events → (run numbers events state).Consistent := by
  induction events with
  | nil => exact fun consistent _ => consistent
  | cons event events ih =>
    exact fun consistent seen => ih (consistent.step numbers seen.1) seen.2

/-- Events that assign or delete nothing keep the flag down. -/
theorem Consistent.unflagged (consistent : state.Consistent) (numbers : NumberSystem ν) {event : Event ν}
    (isChange : event.isChange = false) (unflagged : state.dataChanged = false) :
    (state.step numbers event).dataChanged = false := by
  cases event with
  | getStaticData key => exact (consistent.getStaticData numbers key).2.trans unflagged
  | read handle key =>
    rw [State.step]
    cases state.handle handle <;> exact unflagged
  | newObject => exact unflagged
  | newArray => exact unflagged
  | assign => cases isChange
  | delete => cases isChange
  | saveStaticData =>
    rw [State.step]
    split <;> exact unflagged
  | written write =>
    rw [State.step]
    cases state.writes[write]? with
    | none => exact unflagged
    | some => rfl
  | failed => exact unflagged

end State

/-! ## An empty entry and a counter -/

namespace EmptyGlobal

def naturals : NumberSystem Nat where
  ofLength := id
  isNaN := fun _ => false
  toLength := fun _ => none

def stored : StoredData Nat where
  heap := fun _ => .object ∅
  size := 1
  rootInside := Nat.one_pos
  isObject := ⟨∅, rfl⟩
  inside := by intro address key target found; cases found

def count : Key := ⟨"count", by decide⟩

end EmptyGlobal

end N8n.StaticData
