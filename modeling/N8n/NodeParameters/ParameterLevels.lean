import N8n.NodeParameters.NodeHelpers

/-! # One level of the parameters of a node

The rules for `getNodeParameters` as the rest of the program calls it: a first
pass finds the values that decide what is displayed, and the main loop then
treats every property on its own.
-/

namespace N8n.NodeHelpers

open NodeParameterValueType

variable {Number : Type} [DecidableEq Number] [Zero Number]

/-! ## Reading parameters -/

omit [DecidableEq Number] [Zero Number] in
theorem NodeParameterValueType.nodup_keys (value : NodeParameterValueType Number) : value.keys.Nodup :=
  List.nodup_dedup _

omit [DecidableEq Number] [Zero Number] in
theorem get_entries (parameters : INodeParameters Number) (name : String) :
    (object parameters.entries : NodeParameterValueType Number).get name = (parameters.get? name).getD undefined := by
  have found : ∀ fields : List (String × NodeParameterValueType Number),
      fields.lookup name = (fields.find? fun field => field.1 = name).map Prod.snd := by
    intro fields
    induction fields with
    | nil => rfl
    | cons field rest ih =>
      obtain ⟨key, value⟩ := field
      by_cases same : key = name
      · simp [same]
      · have differs : (name == key) = false := by simpa using Ne.symm same
        simp [List.lookup_cons, same, differs, ih]
  exact congrArg (·.getD undefined) (found parameters.entries)

/-! ## What the main loop collects -/

omit [DecidableEq Number] [Zero Number] in
theorem resolveParameters_congr
    {outcome outcome' : Nat → INodeParameters Number → Except Thrown (String × Outcome Number)} {order : List Nat}
    {state : ParameterState Number} {final : NodeParameterValueType Number}
    (turn : ∀ index ∈ order, ∀ found result, outcome index found = .ok result → outcome' index found = .ok result)
    (returns : resolveParameters outcome order state = .ok final) :
    resolveParameters outcome' order state = .ok final := by
  induction order generalizing state with
  | nil => exact returns
  | cons index rest ih =>
    have later := fun other member => turn other (List.mem_cons_of_mem index member)
    obtain ⟨⟨name, result⟩, first, remaining⟩ := Loop.bind_inv returns
    have first' := turn index List.mem_cons_self _ _ first
    simp only [resolveParameters, first']
    cases result with
    | skip => exact ih later remaining
    | set value full => exact ih later remaining
    | returned value => exact remaining

section

variable {turn : Nat → Except Thrown (String × Outcome Number)}

variable {order : List Nat} {state : ParameterState Number}

omit [DecidableEq Number] [Zero Number] in
theorem resolveParameters_turns {final : NodeParameterValueType Number}
    (stays : ∀ index ∈ order, ∀ name value, turn index ≠ .ok (name, .returned value))
    (returns : resolveParameters (fun index _ => turn index) order state = .ok final) :
    ∀ index ∈ order, ∃ result, turn index = .ok result := by
  induction order generalizing state with
  | nil => intro index member; cases member
  | cons index rest ih =>
    have later := fun other member => stays other (List.mem_cons_of_mem index member)
    obtain ⟨⟨name, result⟩, first, remaining⟩ := Loop.bind_inv returns
    intro other member
    rcases List.mem_cons.mp member with rfl | member
    · exact ⟨_, first⟩
    · cases result with
      | skip => exact ih later remaining other member
      | set value full => exact ih later remaining other member
      | returned value => exact absurd first (stays index List.mem_cons_self name value)

omit [DecidableEq Number] [Zero Number] in
theorem resolveParameters_returns (each : ∀ index ∈ order, ∃ result, turn index = .ok result)
    (state : ParameterState Number) :
    ∃ final, resolveParameters (fun index _ => turn index) order state = .ok final := by
  induction order generalizing state with
  | nil => exact ⟨_, rfl⟩
  | cons index rest ih =>
    have later := ih fun other member => each other (List.mem_cons_of_mem index member)
    obtain ⟨⟨name, result⟩, first⟩ := each index List.mem_cons_self
    simp only [resolveParameters, first]
    cases result with
    | skip => exact later state
    | set value full => exact later _
    | returned value => exact ⟨value, rfl⟩

omit [DecidableEq Number] [Zero Number] in
theorem resolveParameters_left {nodeValues final : NodeParameterValueType Number}
    (same : ∀ index ∈ order, ∀ name value, turn index = .ok (name, .returned value) → value = nodeValues)
    (leaves : ∃ index ∈ order, ∃ name, turn index = .ok (name, .returned nodeValues))
    (returns : resolveParameters (fun index _ => turn index) order state = .ok final) : final = nodeValues := by
  induction order generalizing state with
  | nil => obtain ⟨index, member, _⟩ := leaves; cases member
  | cons index rest ih =>
    have same' := fun other member => same other (List.mem_cons_of_mem index member)
    obtain ⟨⟨name, result⟩, first, remaining⟩ := Loop.bind_inv returns
    change turn index = .ok (name, result) at first
    have leavesLater : (∀ value, result ≠ .returned value) →
        ∃ other ∈ rest, ∃ name, turn other = .ok (name, .returned nodeValues) := by
      intro stays
      obtain ⟨other, member, name', left⟩ := leaves
      rcases List.mem_cons.mp member with rfl | member
      · rw [first] at left
        cases left
        exact absurd rfl (stays nodeValues)
      · exact ⟨other, member, name', left⟩
    cases result with
    | skip => exact ih same' (leavesLater fun _ impossible => by cases impossible) remaining
    | set value full => exact ih same' (leavesLater fun _ impossible => by cases impossible) remaining
    | returned value =>
      cases remaining
      exact same index List.mem_cons_self name _ first

omit [DecidableEq Number] [Zero Number] in
theorem resolveParameters_collected {order : List Nat} {state : ParameterState Number}
    {meant : String → NodeParameterValueType Number → Prop}
    (each : ∀ index ∈ order, ∃ result, turn index = .ok result)
    (stays : ∀ index ∈ order, ∀ name value, turn index ≠ .ok (name, .returned value))
    (functional : ∀ name value value', meant name value → meant name value' → value = value')
    (sets : ∀ index ∈ order, ∀ name value full, turn index = .ok (name, .set value full) → meant name value)
    (start : ∀ name value, state.nodeParameters.get? name = some value → meant name value) :
    ∃ final : INodeParameters Number,
      resolveParameters (fun index _ => turn index) order state = .ok (.object final.entries) ∧
        ∀ name value, final.get? name = some value ↔ state.nodeParameters.get? name = some value ∨
          ∃ index ∈ order, ∃ full, turn index = .ok (name, .set value full) := by
  induction order generalizing state with
  | nil => exact ⟨state.nodeParameters, rfl, by simp⟩
  | cons index rest ih =>
    have each' := fun other member => each other (List.mem_cons_of_mem index member)
    have stays' := fun other member => stays other (List.mem_cons_of_mem index member)
    have sets' := fun other member => sets other (List.mem_cons_of_mem index member)
    obtain ⟨⟨name, result⟩, first⟩ := each index List.mem_cons_self
    cases result with
    | returned value => exact absurd first (stays index List.mem_cons_self name value)
    | skip =>
      obtain ⟨final, returns, collected⟩ := ih each' stays' sets' start
      refine ⟨final, by simp only [resolveParameters, first]; exact returns, fun other value => ?_⟩
      rw [collected]
      simp [first]
    | set value full =>
      have set := sets index List.mem_cons_self name value full first
      obtain ⟨final, returns, collected⟩ := @ih
        { nodeParameters := state.nodeParameters.set name value
          nodeParametersFull :=
            if full then state.nodeParametersFull.set name value else state.nodeParametersFull }
        each' stays' sets' (by
          intro other value' found
          rw [OrderedMap.get?_set] at found
          split at found
          next same => cases found; exact same ▸ set
          next differs => exact start other value' found)
      refine ⟨final, by simp only [resolveParameters, first]; exact returns, fun other value' => ?_⟩
      rw [collected, OrderedMap.get?_set]
      by_cases same : other = name
      · -- what was there before is the same value
        obtain rfl := same
        simp only [List.mem_cons, exists_eq_or_imp, first, Except.ok.injEq, Prod.mk.injEq, true_and,
          Outcome.set.injEq, if_true, Option.some.injEq]
        constructor
        · rintro (rfl | later)
          · exact .inr (.inl ⟨full, rfl, rfl⟩)
          · exact .inr (.inr later)
        · rintro (before | ⟨_, rfl, _⟩ | later)
          · exact .inl (functional _ _ _ set (start _ _ before))
          · exact .inl rfl
          · exact .inr later
      · simp [first, same, Ne.symm same]

omit [DecidableEq Number] [Zero Number] in
theorem resolveParameters_object {final : NodeParameterValueType Number}
    (stays : ∀ index ∈ order, ∀ name value, turn index ≠ .ok (name, .returned value))
    (returns : resolveParameters (fun index _ => turn index) order state = .ok final) :
    final.isPlainObject = true ∧ (final.entries = [] ↔ state.nodeParameters.entries = [] ∧
      ∀ index ∈ order, ∀ name value full, turn index ≠ .ok (name, .set value full)) := by
  induction order generalizing state with
  | nil =>
    cases returns
    exact ⟨rfl, by simp [NodeParameterValueType.entries]⟩
  | cons index rest ih =>
    have later := fun other member => stays other (List.mem_cons_of_mem index member)
    obtain ⟨⟨name, result⟩, first, remaining⟩ := Loop.bind_inv returns
    change turn index = .ok (name, result) at first
    cases result with
    | returned value => exact absurd first (stays index List.mem_cons_self name value)
    | skip =>
      obtain ⟨plain, empty⟩ := ih later remaining
      refine ⟨plain, empty.trans ?_⟩
      simp [first]
    | set value full =>
      obtain ⟨plain, empty⟩ := ih later remaining
      refine ⟨plain, empty.trans ?_⟩
      have filled : (state.nodeParameters.set name value).entries ≠ [] := by
        intro none
        have inside : (name, value) ∈ (state.nodeParameters.set name value).entries :=
          OrderedMap.mem_set.mpr (.inl ⟨rfl, rfl⟩)
        rw [none] at inside
        cases inside
      constructor
      · rintro ⟨none, _⟩
        exact absurd none filled
      · rintro ⟨_, unset⟩
        exact absurd first (unset index List.mem_cons_self name value full)

end

/-! ## The order in which the properties are resolved -/

/-- Every index is in the order or still in line. -/
def Covers (length : Nat) (state : ResolveState) : Prop :=
  ∀ index < length, index ∈ state.executionOrder ∨ index ∈ state.indexToResolve

variable {nodePropertiesArray : List (INodeProperties Number)} {parameterDependencies : IParameterDependencies}

omit [DecidableEq Number] [Zero Number] in
theorem resolveIndex_covers {length index : Nat} {indexToResolve : List Nat} {state next : ResolveState}
    (line : state.indexToResolve = index :: indexToResolve) (covers : Covers length state)
    (turn : resolveIndex nodePropertiesArray parameterDependencies index indexToResolve state = .ok next) :
    Covers length next := by
  intro other below
  unfold resolveIndex at turn
  have before := covers other below
  rw [line, List.mem_cons] at before
  split at turn
  · cases turn
  · split at turn
    · cases turn
    · split at turn
      · cases turn
        simp only [List.mem_append, List.mem_singleton]
        tauto
      · simp only at turn
        split_ifs at turn
        all_goals
          cases turn
          simp only [List.mem_append, List.mem_singleton]
          tauto

omit [DecidableEq Number] [Zero Number] in
theorem resolveIndexes_covers {length fuel : Nat} {state : ResolveState} {order : List Nat}
    (covers : Covers length state)
    (returns : resolveIndexes nodePropertiesArray parameterDependencies fuel state = .ok order) :
    ∀ index < length, index ∈ order := by
  induction fuel generalizing state with
  | zero => cases returns
  | succ fuel ih =>
    cases line : state.indexToResolve with
    | nil =>
      simp only [resolveIndexes, line, Except.ok.injEq] at returns
      intro index below
      have placed := covers index below
      simpa [line, returns] using placed
    | cons index indexToResolve =>
      simp only [resolveIndexes, line] at returns
      obtain ⟨next, turn, remaining⟩ := Loop.bind_inv returns
      exact ih (resolveIndex_covers line covers turn) remaining

omit [DecidableEq Number] [Zero Number] in
theorem mem_getParameterResolveOrder {order : List Nat}
    (returns : getParameterResolveOrder nodePropertiesArray parameterDependencies = .ok order) {index : Nat}
    (below : index < nodePropertiesArray.length) : index ∈ order := by
  refine resolveIndexes_covers ?_ returns index below
  intro other otherBelow
  exact .inr (List.mem_range.mpr otherBelow)

/-! ## The values that decide what is displayed -/

section

variable (runtime : DisplayRuntime Number) (node : Option Number)

/-- One property of the values that decide what is displayed: hidden ones count, and among properties of one name the
ones that the values found so far display. -/
def addDisplayValue (nodePropertiesArray : List (INodeProperties Number)) (nodeValues : NodeParameterValueType Number)
    (nodeValuesRoot : Option (NodeParameterValueType Number)) (parentType : Option ParentType)
    (found : INodeParameters Number) (index : Nat) : Except Thrown (INodeParameters Number) :=
  match nodePropertiesArray[index]? with
  | none => .error (.typeError "Cannot read properties of undefined (reading 'name')")
  | some (.simple head type) =>
    if ¬ nodeValues.isTruthy ∨ nodeValues.get head.name = undefined ∧ parentType = some .collection then .ok found
    else do
      let check : NodeParameterValueType Number := .object found.entries
      if ← (if head.name ∈ duplicateParameterNames nodePropertiesArray then
          displayParameter runtime check (.simple head type) node (some (nodeValuesRoot.getD check))
        else .ok true) then
        .ok (found.set head.name (valueOrDefault type head.default (nodeValues.get head.name)))
      else .ok found
  | some _ => .ok found

/-- The simple parameters with their default values, whether they are displayed or not. -/
def displayValues (nodePropertiesArray : List (INodeProperties Number)) (nodeValues : NodeParameterValueType Number)
    (nodeValuesRoot : Option (NodeParameterValueType Number)) (parentType : Option ParentType) :
    Except Thrown (INodeParameters Number) := do
  let order ← getParameterResolveOrder nodePropertiesArray (getParameterDependencies nodePropertiesArray)
  order.foldlM (addDisplayValue runtime node nodePropertiesArray nodeValues nodeValuesRoot parentType) ∅

theorem resolveParameters_addDisplayValue {nodePropertiesArray : List (INodeProperties Number)}
    {nodeValues : NodeParameterValueType Number} {nodeValuesRoot : Option (NodeParameterValueType Number)}
    {parentType : Option ParentType}
    {outcome : Nat → INodeParameters Number → Except Thrown (String × Outcome Number)}
    (turn : ∀ index found,
      let added := addDisplayValue runtime node nodePropertiesArray nodeValues nodeValuesRoot parentType found index
      (∃ error, outcome index found = .error error ∧ added = .error error) ∨
      (∃ name, outcome index found = .ok (name, .skip) ∧ added = .ok found) ∨
      ∃ name value, outcome index found = .ok (name, .set value true) ∧ added = .ok (found.set name value))
    (order : List Nat) (found : INodeParameters Number) :
    resolveParameters outcome order { nodeParameters := found, nodeParametersFull := found } =
      (order.foldlM (addDisplayValue runtime node nodePropertiesArray nodeValues nodeValuesRoot parentType) found).map
        fun final => .object final.entries := by
  induction order generalizing found with
  | nil => rfl
  | cons index rest ih =>
    rcases turn index found with ⟨error, result, added⟩ | ⟨name, result, added⟩ | ⟨name, value, result, added⟩
    · simp only [resolveParameters, result, Loop.foldlM_cons_error added]
      rfl
    · simp only [resolveParameters, result, Loop.foldlM_cons_ok added]
      exact ih found
    · simp only [resolveParameters, result, Loop.foldlM_cons_ok added]
      exact ih (found.set name value)

theorem parameterOutcome_onlySimpleTypes (names : List String) (nodeValues check root : NodeParameterValueType Number)
    (parentType : Option ParentType) (property : INodeProperties Number) (getNested : Nested property) :
    parameterOutcome runtime names nodeValues true true node true check root parentType property getNested =
      match property with
      | .simple head type =>
        if ¬ nodeValues.isTruthy ∨ nodeValues.get head.name = undefined ∧ parentType = some .collection then .ok .skip
        else do
          if ← (if head.name ∈ names then displayParameter runtime check (.simple head type) node (some root)
              else .ok true) then
            .ok (.set (valueOrDefault type head.default (nodeValues.get head.name)) true)
          else .ok .skip
      | _ => .ok .skip := by
  unfold parameterOutcome
  cases property with
  | simple head type =>
    simp only [not_true_eq_false, false_or, INodeProperties.name, INodeProperties.head, ↓reduceIte]
    split
    · rfl
    · rfl
  | collection head multipleValues options => split <;> rfl
  | fixedCollection head multipleValues options => split <;> rfl

/-- The values that decide what is displayed are what `getNodeParameters` asks itself for first. -/
theorem getNodeParameters_displayValues (nodePropertiesArray : List (INodeProperties Number))
    (nodeValues : NodeParameterValueType Number) (nodeValuesRoot : Option (NodeParameterValueType Number))
    (parentType : Option ParentType) :
    getNodeParameters runtime nodePropertiesArray nodeValues true true node true true nodeValuesRoot parentType
        (some (getParameterDependencies nodePropertiesArray)) =
      (displayValues runtime node nodePropertiesArray nodeValues nodeValuesRoot parentType).map
        fun found => .object found.entries := by
  rw [getNodeParameters, displayValues]
  simp only [Option.getD_some, not_true_eq_false, false_and, ↓reduceIte, parameterOutcome_onlySimpleTypes]
  cases resolved : getParameterResolveOrder nodePropertiesArray (getParameterDependencies nodePropertiesArray) with
  | error error => rfl
  | ok order =>
    refine resolveParameters_addDisplayValue runtime node ?_ order ∅
    intro index found
    split
    next missing => exact .inl ⟨_, rfl, by simp only [addDisplayValue, missing]⟩
    next property located =>
      simp only [addDisplayValue, located]
      cases property with
      | simple head type =>
        dsimp only [Option.getD_none]
        split
        · exact .inr (.inl ⟨_, rfl, rfl⟩)
        · cases (if head.name ∈ duplicateParameterNames nodePropertiesArray then
              displayParameter runtime (object found.entries) (.simple head type) node
                (some (nodeValuesRoot.getD (object found.entries)))
            else .ok true : Except Thrown Bool) with
          | error error => exact .inl ⟨error, rfl, rfl⟩
          | ok displayed =>
            cases displayed with
            | false => exact .inr (.inl ⟨_, rfl, rfl⟩)
            | true => exact .inr (.inr ⟨_, _, rfl, rfl⟩)
      | collection head multipleValues options => exact .inr (.inl ⟨_, rfl, rfl⟩)
      | fixedCollection head multipleValues options => exact .inr (.inl ⟨_, rfl, rfl⟩)

/-! ## One level of the parameters -/

/-- The values at the root: those of the whole node, or the ones at hand on the highest level. -/
def rootValues (check : INodeParameters Number) (nodeValuesRoot : Option (NodeParameterValueType Number)) :
    NodeParameterValueType Number :=
  nodeValuesRoot.getD (.object check.entries)

def displays (check : INodeParameters Number) (nodeValuesRoot : Option (NodeParameterValueType Number))
    (property : INodeProperties Number) : Except Thrown Bool :=
  displayParameter runtime (.object check.entries) property node (some (rootValues check nodeValuesRoot))

def resolveLevel (returnDefaults : Bool) (nodePropertiesArray : List (INodeProperties Number))
    (nodeValues : NodeParameterValueType Number) (nodeValuesRoot : Option (NodeParameterValueType Number))
    (parentType : Option ParentType) : Except Thrown (NodeParameterValueType Number) :=
  getNodeParameters runtime nodePropertiesArray nodeValues returnDefaults false node false false nodeValuesRoot
    parentType none

/-- What the main loop does about a property that is displayed. -/
def displayedOutcome (returnDefaults : Bool) (nodeValues root : NodeParameterValueType Number)
    (parentType : Option ParentType) : INodeProperties Number → Except Thrown (Outcome Number)
  | .simple head type => .ok (simpleOutcome type head.default (nodeValues.get head.name) returnDefaults parentType)
  | .collection head multipleValues options =>
    collectionOutcome head multipleValues options (nodeValues.get head.name) returnDefaults fun list _ value =>
      resolveLevel runtime node returnDefaults list value (some root) (some .collection)
  | .fixedCollection head multipleValues options =>
    fixedCollectionOutcome head multipleValues options nodeValues (nodeValues.get head.name) returnDefaults
      fun list _ value => resolveLevel runtime node returnDefaults list value (some root) (some .fixedCollection)

/-- The main loop goes on to the next property without asking what is displayed. -/
def IsSkipped (returnDefaults : Bool) (nodeValues : NodeParameterValueType Number) (parentType : Option ParentType)
    (name : String) : Prop :=
  ¬ nodeValues.isTruthy ∨
    nodeValues.get name = undefined ∧ (¬ returnDefaults ∨ parentType = some .collection)

instance (returnDefaults : Bool) (nodeValues : NodeParameterValueType Number) (parentType : Option ParentType)
    (name : String) : Decidable (IsSkipped returnDefaults nodeValues parentType name) :=
  inferInstanceAs (Decidable (_ ∨ _))

def levelOutcome (returnDefaults : Bool) (nodeValues : NodeParameterValueType Number) (check : INodeParameters Number)
    (nodeValuesRoot : Option (NodeParameterValueType Number)) (parentType : Option ParentType)
    (property : INodeProperties Number) : Except Thrown (Outcome Number) :=
  if IsSkipped returnDefaults nodeValues parentType property.name then .ok .skip
  else do
    if ← displays runtime node check nodeValuesRoot property then
      displayedOutcome runtime node returnDefaults nodeValues (rootValues check nodeValuesRoot) parentType property
    else .ok .skip

def levelTurn (returnDefaults : Bool) (nodePropertiesArray : List (INodeProperties Number))
    (nodeValues : NodeParameterValueType Number) (check : INodeParameters Number)
    (nodeValuesRoot : Option (NodeParameterValueType Number)) (parentType : Option ParentType) (index : Nat) :
    Except Thrown (String × Outcome Number) :=
  match nodePropertiesArray[index]? with
  | none => .error (.typeError "Cannot read properties of undefined (reading 'name')")
  | some property => do
    let outcome ← levelOutcome runtime node returnDefaults nodeValues check nodeValuesRoot parentType property
    .ok (property.name, outcome)

/-- The second look at properties whose name gets used multiple times finds what the first one found. -/
theorem parameterOutcome_level (names : List String) (returnDefaults : Bool)
    (nodeValues : NodeParameterValueType Number) (check : INodeParameters Number)
    (nodeValuesRoot : Option (NodeParameterValueType Number)) (parentType : Option ParentType)
    (property : INodeProperties Number) :
    parameterOutcome runtime names nodeValues returnDefaults false node false (.object check.entries)
        (rootValues check nodeValuesRoot) parentType property (fun list _ value =>
          resolveLevel runtime node returnDefaults list value (some (rootValues check nodeValuesRoot))
            (some property.asParentType)) =
      levelOutcome runtime node returnDefaults nodeValues check nodeValuesRoot parentType property := by
  rw [levelOutcome]
  by_cases skipped : IsSkipped returnDefaults nodeValues parentType property.name
  · rw [if_pos skipped]
    exact if_pos skipped
  · rw [if_neg skipped]
    refine (if_neg skipped).trans ?_
    cases shown : displays runtime node check nodeValuesRoot property with
    | error error =>
      rw [displays] at shown
      simp only [shown]
      rfl
    | ok displayed =>
      rw [displays] at shown
      simp only [shown]
      cases displayed with
      | false => rfl
      | true =>
        cases property with
        | simple head type =>
          by_cases duplicate : head.name ∈ names
          · simp only [propertyOutcome, if_pos duplicate]
            rfl
          · simp only [propertyOutcome, if_neg duplicate]
            rfl
        | collection head multipleValues options => rfl
        | fixedCollection head multipleValues options => rfl

/-- A level is resolved by a first pass and a loop whose turns do not depend on each other. -/
theorem resolveLevel_eq_loop (returnDefaults : Bool) (nodePropertiesArray : List (INodeProperties Number))
    (nodeValues : NodeParameterValueType Number) (nodeValuesRoot : Option (NodeParameterValueType Number))
    (parentType : Option ParentType) :
    resolveLevel runtime node returnDefaults nodePropertiesArray nodeValues nodeValuesRoot parentType = (do
      let check ← displayValues runtime node nodePropertiesArray nodeValues nodeValuesRoot parentType
      let order ← getParameterResolveOrder nodePropertiesArray (getParameterDependencies nodePropertiesArray)
      resolveParameters (fun index _ =>
        levelTurn runtime node returnDefaults nodePropertiesArray nodeValues check nodeValuesRoot parentType index)
        order {}) := by
  rw [resolveLevel, getNodeParameters]
  simp only [Option.getD_none, Bool.false_eq_true, not_false_eq_true, and_self, ↓reduceIte,
    getNodeParameters_displayValues]
  cases displayValues runtime node nodePropertiesArray nodeValues nodeValuesRoot parentType with
  | error error => rfl
  | ok check =>
    cases getParameterResolveOrder nodePropertiesArray (getParameterDependencies nodePropertiesArray) with
    | error error => rfl
    | ok order =>
      refine congrArg (fun outcome => resolveParameters outcome order {}) ?_
      funext index _
      dsimp only [levelTurn]
      split
      next missing => simp only [missing]
      next property located =>
        simp only [located]
        exact congrArg (fun result => result >>= fun outcome => .ok (property.name, outcome))
          (parameterOutcome_level runtime node _ returnDefaults nodeValues check nodeValuesRoot parentType property)

theorem resolveLevel_eq {nodePropertiesArray : List (INodeProperties Number)}
    {nodeValues : NodeParameterValueType Number} {nodeValuesRoot : Option (NodeParameterValueType Number)}
    {parentType : Option ParentType} {check : INodeParameters Number} {order : List Nat}
    (checked : displayValues runtime node nodePropertiesArray nodeValues nodeValuesRoot parentType = .ok check)
    (ordered : getParameterResolveOrder nodePropertiesArray (getParameterDependencies nodePropertiesArray) = .ok order)
    (returnDefaults : Bool) :
    resolveLevel runtime node returnDefaults nodePropertiesArray nodeValues nodeValuesRoot parentType =
      resolveParameters (fun index _ =>
        levelTurn runtime node returnDefaults nodePropertiesArray nodeValues check nodeValuesRoot parentType index)
        order {} := by
  rw [resolveLevel_eq_loop, checked, ordered]
  rfl

section

variable {runtime node}

variable {returnDefaults : Bool} {check : INodeParameters Number} {property : INodeProperties Number}
  {nodeValues : NodeParameterValueType Number} {parentType : Option ParentType}
  {nodeValuesRoot : Option (NodeParameterValueType Number)}

theorem levelOutcome_inv
    {outcome : Outcome Number}
    (returns : levelOutcome runtime node returnDefaults nodeValues check nodeValuesRoot parentType property =
      .ok outcome) :
    IsSkipped returnDefaults nodeValues parentType property.name ∧ outcome = .skip ∨
      ¬ IsSkipped returnDefaults nodeValues parentType property.name ∧
        (displays runtime node check nodeValuesRoot property = .ok false ∧ outcome = .skip ∨
          displays runtime node check nodeValuesRoot property = .ok true ∧
            displayedOutcome runtime node returnDefaults nodeValues (rootValues check nodeValuesRoot) parentType
              property = .ok outcome) := by
  rw [levelOutcome] at returns
  by_cases skipped : IsSkipped returnDefaults nodeValues parentType property.name
  · rw [if_pos skipped, Except.ok.injEq] at returns
    exact .inl ⟨skipped, returns.symm⟩
  · rw [if_neg skipped] at returns
    obtain ⟨displayed, shown, rest⟩ := Loop.bind_inv returns
    cases displayed with
    | false =>
      rw [if_neg Bool.false_ne_true, Except.ok.injEq] at rest
      exact .inr ⟨skipped, .inl ⟨shown, rest.symm⟩⟩
    | true =>
      rw [if_pos rfl] at rest
      exact .inr ⟨skipped, .inr ⟨shown, rest⟩⟩

theorem levelOutcome_of_skipped
    (skipped : IsSkipped returnDefaults nodeValues parentType property.name) (check : INodeParameters Number)
    (nodeValuesRoot : Option (NodeParameterValueType Number)) :
    levelOutcome runtime node returnDefaults nodeValues check nodeValuesRoot parentType property = .ok .skip :=
  if_pos skipped

theorem levelOutcome_of_hidden
    (hidden : displays runtime node check nodeValuesRoot property = .ok false) :
    levelOutcome runtime node returnDefaults nodeValues check nodeValuesRoot parentType property = .ok .skip := by
  rw [levelOutcome, hidden]
  split <;> rfl

theorem levelOutcome_of_displayed
    (visited : ¬ IsSkipped returnDefaults nodeValues parentType property.name)
    (shown : displays runtime node check nodeValuesRoot property = .ok true) :
    levelOutcome runtime node returnDefaults nodeValues check nodeValuesRoot parentType property =
      displayedOutcome runtime node returnDefaults nodeValues (rootValues check nodeValuesRoot) parentType
        property := by
  rw [levelOutcome, if_neg visited, shown]
  rfl

end

section

variable {head : PropertyHead Number} {multipleValues : Option Bool}
  {options : List (String × List (INodeProperties Number))}

theorem fixedCollectionOutcome_withDefaults (nodeValues value : NodeParameterValueType Number)
    (getNested : Nested (.fixedCollection head multipleValues options)) :
    fixedCollectionOutcome head multipleValues options nodeValues value true getNested = (do
      let propertyValues := if value = undefined then head.default else value
      let collectionValues ← propertyValues.keys.foldlM
        (OrderedMap.setFrom (optionValues head multipleValues options value propertyValues getNested))
        (∅ : INodeParameters Number)
      .ok (.set (.object collectionValues.entries) true)) := by
  simp [fixedCollectionOutcome]

/-- The values of a fixed collection that a save finds. -/
def savedOutcome (multipleValues : Option Bool) (value : NodeParameterValueType Number)
    (collectionValues : List (String × NodeParameterValueType Number)) : Outcome Number :=
  if collectionValues ≠ [] then .set (.object collectionValues) true
  else if multipleValues = some false ∧ value.isPlainObject ∧ value.keys ≠ [] then
    .set (.object (value.keys.foldl (fun (returnValue : INodeParameters Number) itemName =>
      returnValue.set itemName (.object [])) ∅).entries) false
  else .skip

theorem fixedCollectionOutcome_withoutDefaults (nodeValues value : NodeParameterValueType Number)
    (getNested : Nested (.fixedCollection head multipleValues options)) :
    fixedCollectionOutcome head multipleValues options nodeValues value false getNested =
      if multipleValues = some false ∧ value.isTruthy ∧ value.keys = [] then .ok (.returned nodeValues)
      else (do
        let collectionValues ← value.keys.foldlM
          (OrderedMap.setFrom (optionValues head multipleValues options value value getNested))
          (∅ : INodeParameters Number)
        .ok (savedOutcome multipleValues value collectionValues.entries)) := by
  simp only [fixedCollectionOutcome, Bool.false_eq_true, false_and, ↓reduceIte, not_false_eq_true, true_and,
    or_false]
  split
  · rfl
  · refine congrArg _ (funext fun collectionValues => ?_)
    unfold savedOutcome
    split_ifs <;> rfl

end

section

variable {head : PropertyHead Number} {multipleValues : Option Bool}
  {options : List (String × List (INodeProperties Number))}
  {ownValue propertyValues : NodeParameterValueType Number}
  {getNested : Nested (.fixedCollection head multipleValues options)} {itemName : String}

omit [DecidableEq Number] [Zero Number] in
theorem not_nothing_of_mem_keys {value : NodeParameterValueType Number} {name : String}
    (member : name ∈ value.keys) : value ≠ undefined ∧ value ≠ null := by
  constructor
  · rintro rfl
    cases member
  · rintro rfl
    cases member

omit [Zero Number] in
theorem optionValues_of_missing (single : multipleValues ≠ some true)
    (missing : findOption head multipleValues options itemName = none) :
    optionValues head multipleValues options ownValue propertyValues getNested itemName = .ok none := by
  rw [optionValues, if_neg single, missing]

omit [Zero Number] in
theorem optionValues_of_found (single : multipleValues ≠ some true) (present : ownValue ≠ undefined ∧ ownValue ≠ null)
    {option} (found : findOption head multipleValues options itemName = some option) :
    optionValues head multipleValues options ownValue propertyValues getNested itemName = (do
      let tempValue ← getNested option.1 option.2 (ownValue.get itemName)
      .ok (if tempValue.entries = [] then none else some (.object tempValue.entries))) := by
  rw [optionValues, if_neg single, found]
  exact if_neg (by simp [present])

omit [Zero Number] in
theorem optionValues_of_multiple (multiple : multipleValues = some true)
    {result : Option (NodeParameterValueType Number)}
    (returns : optionValues head multipleValues options ownValue propertyValues getNested itemName = .ok result) :
    ∃ items tempArrayValue, iterate (propertyValues.get itemName) = .ok items ∧
      items.mapM (arrayValue head multipleValues options getNested itemName) = .ok tempArrayValue ∧
      result = some (.array (tempArrayValue.filter (· ≠ null))) := by
  rw [optionValues, if_pos multiple] at returns
  obtain ⟨items, iterated, rest⟩ := Loop.bind_inv returns
  obtain ⟨tempArrayValue, mapped, rest⟩ := Loop.bind_inv rest
  cases rest
  exact ⟨items, tempArrayValue, iterated, mapped, rfl⟩

variable {nodeValues value : NodeParameterValueType Number}

theorem fixedCollectionOutcome_saved {outcome : Outcome Number}
    (returns : fixedCollectionOutcome head multipleValues options nodeValues value false getNested = .ok outcome)
    (stays : ∀ other, outcome ≠ .returned other) :
    ∃ given : String → Option (NodeParameterValueType Number),
      (∀ itemName ∈ value.keys,
        optionValues head multipleValues options value value getNested itemName = .ok (given itemName)) ∧
      outcome = savedOutcome multipleValues value
        (value.keys.filterMap fun itemName => (given itemName).map (Prod.mk itemName)) := by
  rw [fixedCollectionOutcome_withoutDefaults] at returns
  split at returns
  · cases returns
    exact absurd rfl (stays nodeValues)
  · obtain ⟨collectionValues, collected, rest⟩ := Loop.bind_inv returns
    cases rest
    obtain ⟨given, each, entries⟩ := OrderedMap.foldlM_setFrom_eq value.nodup_keys collected
    exact ⟨given, each, by rw [entries]⟩

theorem fixedCollectionOutcome_saves
    {given : String → Option (NodeParameterValueType Number)}
    (unreturned : ¬ (multipleValues = some false ∧ value.isTruthy ∧ value.keys = []))
    (each : ∀ itemName ∈ value.keys,
      optionValues head multipleValues options value value getNested itemName = .ok (given itemName)) :
    fixedCollectionOutcome head multipleValues options nodeValues value false getNested =
      .ok (savedOutcome multipleValues value
        (value.keys.filterMap fun itemName => (given itemName).map (Prod.mk itemName))) := by
  obtain ⟨collectionValues, collected, entries⟩ := OrderedMap.foldlM_setFrom_empty value.nodup_keys each
  rw [fixedCollectionOutcome_withoutDefaults, if_neg unreturned, collected, ← entries]
  rfl

theorem fixedCollectionOutcome_loads
    (given : String → Option (NodeParameterValueType Number))
    (isValues : (if value = undefined then head.default else value) = propertyValues)
    (each : ∀ itemName ∈ propertyValues.keys,
      optionValues head multipleValues options value propertyValues getNested itemName = .ok (given itemName)) :
    fixedCollectionOutcome head multipleValues options nodeValues value true getNested =
      .ok (.set (.object (propertyValues.keys.filterMap fun itemName =>
        (given itemName).map (Prod.mk itemName))) true) := by
  obtain ⟨collectionValues, collected, entries⟩ := OrderedMap.foldlM_setFrom_empty propertyValues.nodup_keys each
  rw [fixedCollectionOutcome_withDefaults]
  simp only [isValues]
  rw [collected, ← entries]
  rfl

theorem fixedCollectionOutcome_loaded {outcome : Outcome Number}
    (isValues : (if value = undefined then head.default else value) = propertyValues)
    (returns : fixedCollectionOutcome head multipleValues options nodeValues value true getNested = .ok outcome) :
    ∃ given : String → Option (NodeParameterValueType Number),
      (∀ itemName ∈ propertyValues.keys,
        optionValues head multipleValues options value propertyValues getNested itemName = .ok (given itemName)) ∧
      outcome = .set (.object (propertyValues.keys.filterMap fun itemName =>
        (given itemName).map (Prod.mk itemName))) true := by
  rw [fixedCollectionOutcome_withDefaults] at returns
  simp only [isValues] at returns
  obtain ⟨collectionValues, collected, rest⟩ := Loop.bind_inv returns
  obtain ⟨given, each, entries⟩ := OrderedMap.foldlM_setFrom_eq propertyValues.nodup_keys collected
  exact ⟨given, each, by rw [← entries]; exact (Except.ok.inj rest).symm⟩

end

/-! ### A level whose properties can be resolved -/

section

variable {runtime node}

/-- The values that decide what is displayed are known, and the order names properties only. -/
structure IsLevel (nodePropertiesArray : List (INodeProperties Number)) (nodeValues : NodeParameterValueType Number)
    (nodeValuesRoot : Option (NodeParameterValueType Number)) (parentType : Option ParentType)
    (check : INodeParameters Number) (order : List Nat) : Prop where
  checked : displayValues runtime node nodePropertiesArray nodeValues nodeValuesRoot parentType = .ok check
  ordered : getParameterResolveOrder nodePropertiesArray (getParameterDependencies nodePropertiesArray) = .ok order
  indexed : ∀ index ∈ order, ∃ property, nodePropertiesArray[index]? = some property

variable {nodePropertiesArray : List (INodeProperties Number)} {nodeValues : NodeParameterValueType Number}
  {nodeValuesRoot : Option (NodeParameterValueType Number)} {parentType : Option ParentType}
  {check : INodeParameters Number} {order : List Nat} {returnDefaults : Bool}

variable {outcome : Outcome Number}

theorem levelTurn_inv {index : Nat} {name : String}
    (returns : levelTurn runtime node returnDefaults nodePropertiesArray nodeValues check nodeValuesRoot parentType
      index = .ok (name, outcome)) :
    ∃ property ∈ nodePropertiesArray, nodePropertiesArray[index]? = some property ∧ name = property.name ∧
      levelOutcome runtime node returnDefaults nodeValues check nodeValuesRoot parentType property = .ok outcome := by
  rw [levelTurn] at returns
  split at returns
  · cases returns
  next property located =>
    obtain ⟨result, first, named⟩ := Loop.bind_inv returns
    cases named
    exact ⟨property, List.mem_of_getElem? located, located, rfl, first⟩

variable {property : INodeProperties Number}

theorem levelTurn_of_outcome {index : Nat} (located : nodePropertiesArray[index]? = some property)
    (returns : levelOutcome runtime node returnDefaults nodeValues check nodeValuesRoot parentType property =
      .ok outcome) :
    levelTurn runtime node returnDefaults nodePropertiesArray nodeValues check nodeValuesRoot parentType index =
      .ok (property.name, outcome) := by
  rw [levelTurn, located]
  simp only [returns]
  rfl

theorem IsLevel.covers
    (level : @IsLevel _ _ _ runtime node nodePropertiesArray nodeValues nodeValuesRoot parentType check order)
    (member : property ∈ nodePropertiesArray) :
    ∃ index ∈ order, nodePropertiesArray[index]? = some property := by
  obtain ⟨index, below, located⟩ := List.mem_iff_getElem.mp member
  exact ⟨index, mem_getParameterResolveOrder level.ordered below, by rw [List.getElem?_eq_getElem below, located]⟩

/-- What can leave the main loop is a fixed collection that allows one value and is empty. -/
theorem displayedOutcome_returned {root value : NodeParameterValueType Number}
    (returns : displayedOutcome runtime node returnDefaults nodeValues root parentType property =
      .ok (.returned value)) :
    returnDefaults = false ∧ value = nodeValues ∧ ∃ head options,
      property = .fixedCollection head (some false) options ∧ (nodeValues.get head.name).isTruthy ∧
        (nodeValues.get head.name).keys = [] := by
  cases property with
  | simple head type =>
    simp only [displayedOutcome, simpleOutcome, Except.ok.injEq] at returns
    split_ifs at returns
  | collection head multipleValues options =>
    simp only [displayedOutcome, collectionOutcome] at returns
    split_ifs at returns
    · cases returns
    · split at returns <;> cases returns
    · cases returns
    · obtain ⟨nested, _, rest⟩ := Loop.bind_inv returns
      split_ifs at rest <;> cases rest
    · cases returns
    · cases returns
  | fixedCollection head multipleValues options =>
    cases returnDefaults with
    | true =>
      simp only [displayedOutcome, fixedCollectionOutcome_withDefaults] at returns
      obtain ⟨collectionValues, _, rest⟩ := Loop.bind_inv returns
      cases rest
    | false =>
      simp only [displayedOutcome, fixedCollectionOutcome_withoutDefaults] at returns
      split at returns
      next indicated =>
        obtain ⟨rfl, truthy, empty⟩ := indicated
        cases returns
        exact ⟨rfl, rfl, head, options, rfl, truthy, empty⟩
      · obtain ⟨collectionValues, _, rest⟩ := Loop.bind_inv returns
        simp only [savedOutcome, Except.ok.injEq] at rest
        split_ifs at rest

theorem levelOutcome_returned {value : NodeParameterValueType Number}
    (returns : levelOutcome runtime node returnDefaults nodeValues check nodeValuesRoot parentType property =
      .ok (.returned value)) :
    ¬ IsSkipped returnDefaults nodeValues parentType property.name ∧
      displays runtime node check nodeValuesRoot property = .ok true ∧
        returnDefaults = false ∧ value = nodeValues ∧ ∃ head options,
          property = .fixedCollection head (some false) options ∧ (nodeValues.get head.name).isTruthy ∧
            (nodeValues.get head.name).keys = [] := by
  rcases levelOutcome_inv returns with ⟨_, impossible⟩ | ⟨visited, ⟨_, impossible⟩ | ⟨shown, returned⟩⟩
  · cases impossible
  · cases impossible
  · exact ⟨visited, shown, displayedOutcome_returned returned⟩

variable {final : NodeParameterValueType Number}

/-- Either a property leaves the level, which is then returned as it is, or every property has an outcome. -/
theorem resolveLevel_inv
    (returns : resolveLevel runtime node returnDefaults nodePropertiesArray nodeValues nodeValuesRoot parentType =
      .ok final) :
    ∃ check, displayValues runtime node nodePropertiesArray nodeValues nodeValuesRoot parentType = .ok check ∧
      ((∃ property ∈ nodePropertiesArray,
          levelOutcome runtime node returnDefaults nodeValues check nodeValuesRoot parentType property =
            .ok (.returned nodeValues)) ∧ final = nodeValues ∨
        (∃ order, @IsLevel _ _ _ runtime node nodePropertiesArray nodeValues nodeValuesRoot parentType check order) ∧
          (∀ property ∈ nodePropertiesArray, ∃ outcome,
            levelOutcome runtime node returnDefaults nodeValues check nodeValuesRoot parentType property =
                .ok outcome ∧
              ∀ value, outcome ≠ .returned value) ∧
          final.isPlainObject = true ∧
          (final.entries = [] ↔ ∀ property ∈ nodePropertiesArray, ∀ value full,
            levelOutcome runtime node returnDefaults nodeValues check nodeValuesRoot parentType property ≠
              .ok (.set value full))) := by
  rw [resolveLevel_eq_loop] at returns
  obtain ⟨check, checked, rest⟩ := Loop.bind_inv returns
  obtain ⟨order, ordered, returns⟩ := Loop.bind_inv rest
  refine ⟨check, checked, ?_⟩
  have covers : ∀ property ∈ nodePropertiesArray, ∃ index ∈ order,
      nodePropertiesArray[index]? = some property := by
    intro property member
    obtain ⟨index, below, located⟩ := List.mem_iff_getElem.mp member
    exact ⟨index, mem_getParameterResolveOrder ordered below, by rw [List.getElem?_eq_getElem below, located]⟩
  by_cases leaves : ∃ property ∈ nodePropertiesArray,
      levelOutcome runtime node returnDefaults nodeValues check nodeValuesRoot parentType property =
        .ok (.returned nodeValues)
  · refine .inl ⟨leaves, resolveParameters_left ?_ ?_ returns⟩
    · intro index _ name value turn
      obtain ⟨property, _, _, _, outcome⟩ := levelTurn_inv turn
      exact (levelOutcome_returned outcome).2.2.2.1
    · obtain ⟨property, member, outcome⟩ := leaves
      obtain ⟨index, inOrder, located⟩ := covers property member
      exact ⟨index, inOrder, property.name, levelTurn_of_outcome located outcome⟩
  · have stays : ∀ index ∈ order, ∀ name value,
        levelTurn runtime node returnDefaults nodePropertiesArray nodeValues check nodeValuesRoot parentType index ≠
          .ok (name, .returned value) := by
      intro index _ name value turn
      obtain ⟨property, member, _, _, outcome⟩ := levelTurn_inv turn
      obtain rfl := (levelOutcome_returned outcome).2.2.2.1
      exact leaves ⟨property, member, outcome⟩
    obtain ⟨plain, empty⟩ := resolveParameters_object stays returns
    have turns := resolveParameters_turns stays returns
    refine .inr ⟨⟨order, checked, ordered, fun index member => ?_⟩, fun property member => ?_, plain,
      empty.trans ?_⟩
    · obtain ⟨⟨name, result⟩, turn⟩ := turns index member
      obtain ⟨property, _, located, _⟩ := levelTurn_inv turn
      exact ⟨property, located⟩
    · obtain ⟨index, inOrder, located⟩ := covers property member
      obtain ⟨⟨name, outcome⟩, turn⟩ := turns index inOrder
      obtain ⟨property', _, located', _, result⟩ := levelTurn_inv turn
      obtain rfl : property' = property := Option.some.inj (located'.symm.trans located)
      refine ⟨outcome, result, fun value returned => ?_⟩
      exact stays index inOrder name value (returned ▸ turn)
    · constructor
      · rintro ⟨_, unset⟩ property member value full outcome
        obtain ⟨index, inOrder, located⟩ := covers property member
        exact unset index inOrder property.name value full (levelTurn_of_outcome located outcome)
      · intro unset
        refine ⟨rfl, fun index _ name value full turn => ?_⟩
        obtain ⟨property, member, _, _, outcome⟩ := levelTurn_inv turn
        exact unset property member value full outcome

theorem resolveLevel_truthy
    (returns : resolveLevel runtime node returnDefaults nodePropertiesArray nodeValues nodeValuesRoot parentType =
      .ok final) : final.isTruthy = true := by
  obtain ⟨check, _, ⟨⟨property, _, left⟩, rfl⟩ | ⟨_, _, plain, _⟩⟩ := resolveLevel_inv returns
  · by_contra falsy
    exact (levelOutcome_returned left).1 (.inl falsy)
  · cases final with
    | object fields => rfl
    | _ => cases plain

theorem resolveLevel_not_nothing
    (returns : resolveLevel runtime node returnDefaults nodePropertiesArray nodeValues nodeValuesRoot parentType =
      .ok final) : final ≠ undefined ∧ final ≠ null := by
  have truthy := resolveLevel_truthy returns
  constructor
  · rintro rfl
    cases truthy
  · rintro rfl
    cases truthy

/-- A collection that is stored is taken as it is when it can be set multiple times, and else resolved. -/
theorem displayedOutcome_collection {head : PropertyHead Number} {multipleValues : Option Bool}
    {options : List (INodeProperties Number)} {root : NodeParameterValueType Number}
    (present : nodeValues.get head.name ≠ undefined) :
    displayedOutcome runtime node returnDefaults nodeValues root parentType
        (.collection head multipleValues options) =
      if multipleValues = some true then .ok (.set (nodeValues.get head.name) true)
      else (do
        let tempNodeParameters ← resolveLevel runtime node returnDefaults options (nodeValues.get head.name)
          (some root) (some .collection)
        .ok (.set tempNodeParameters true)) := by
  simp only [displayedOutcome, collectionOutcome, if_pos present]
  split
  · rfl
  · cases nested : resolveLevel runtime node returnDefaults options (nodeValues.get head.name) (some root)
        (some .collection) with
    | error error => rfl
    | ok tempNodeParameters => exact if_pos (resolveLevel_not_nothing nested).2

theorem displayedOutcome_withDefaults_sets {root : NodeParameterValueType Number}
    (returns : displayedOutcome runtime node true nodeValues root parentType property = .ok outcome) :
    ∃ value, outcome = .set value true := by
  cases property with
  | simple head type => exact ⟨_, (Except.ok.inj returns).symm⟩
  | collection head multipleValues options =>
    by_cases present : nodeValues.get head.name = undefined
    · simp only [displayedOutcome, collectionOutcome, present, ne_eq, not_true_eq_false, ↓reduceIte] at returns
      split_ifs at returns
      · split at returns <;> exact ⟨_, (Except.ok.inj returns).symm⟩
      · exact ⟨_, (Except.ok.inj returns).symm⟩
    · rw [displayedOutcome_collection present] at returns
      split at returns
      · exact ⟨_, (Except.ok.inj returns).symm⟩
      · obtain ⟨_, _, rest⟩ := Loop.bind_inv returns
        exact ⟨_, (Except.ok.inj rest).symm⟩
  | fixedCollection head multipleValues options =>
    rw [displayedOutcome, fixedCollectionOutcome_withDefaults] at returns
    obtain ⟨_, _, rest⟩ := Loop.bind_inv returns
    exact ⟨_, (Except.ok.inj rest).symm⟩

theorem resolveLevel_withDefaults_congr {nodeValues' : NodeParameterValueType Number}
    (truthy : nodeValues'.isTruthy = nodeValues.isTruthy) (reads : ∀ name, nodeValues'.get name = nodeValues.get name) :
    resolveLevel runtime node true nodePropertiesArray nodeValues' nodeValuesRoot parentType =
      resolveLevel runtime node true nodePropertiesArray nodeValues nodeValuesRoot parentType := by
  have same : ∀ root (property : INodeProperties Number),
      displayedOutcome runtime node true nodeValues' root parentType property =
        displayedOutcome runtime node true nodeValues root parentType property := by
    intro root property
    cases property with
    | simple head type => simp only [displayedOutcome, reads]
    | collection head multipleValues options => simp only [displayedOutcome, reads]
    | fixedCollection head multipleValues options =>
      simp only [displayedOutcome, reads, fixedCollectionOutcome_withDefaults]
  have turns : ∀ check index,
      levelTurn runtime node true nodePropertiesArray nodeValues' check nodeValuesRoot parentType index =
        levelTurn runtime node true nodePropertiesArray nodeValues check nodeValuesRoot parentType index := by
    intro check index
    simp only [levelTurn, levelOutcome, IsSkipped, truthy, reads, same]
  have checks : addDisplayValue runtime node nodePropertiesArray nodeValues' nodeValuesRoot parentType =
      addDisplayValue runtime node nodePropertiesArray nodeValues nodeValuesRoot parentType := by
    funext found index
    simp only [addDisplayValue, truthy, reads]
  rw [resolveLevel_eq_loop, resolveLevel_eq_loop, displayValues, displayValues, checks]
  simp only [turns]

theorem IsLevel.of_withDefaults {loaded : NodeParameterValueType Number}
    (returns : resolveLevel runtime node true nodePropertiesArray nodeValues nodeValuesRoot parentType = .ok loaded) :
    ∃ check order,
      @IsLevel _ _ _ runtime node nodePropertiesArray nodeValues nodeValuesRoot parentType check order ∧
        ∀ property ∈ nodePropertiesArray, ∃ outcome,
          levelOutcome runtime node true nodeValues check nodeValuesRoot parentType property = .ok outcome := by
  obtain ⟨check, _, ⟨⟨property, _, left⟩, _⟩ | ⟨⟨order, level⟩, outcomes, _⟩⟩ := resolveLevel_inv returns
  · cases (levelOutcome_returned left).2.2.1
  · refine ⟨check, order, level, fun property member => ?_⟩
    obtain ⟨outcome, first, _⟩ := outcomes property member
    exact ⟨outcome, first⟩

theorem IsLevel.withDefaults_congr {nodeValues' : NodeParameterValueType Number}
    {nodeValuesRoot' : Option (NodeParameterValueType Number)} {check' : INodeParameters Number}
    {loaded : NodeParameterValueType Number}
    (level : @IsLevel _ _ _ runtime node nodePropertiesArray nodeValues nodeValuesRoot parentType check order)
    (checked' : displayValues runtime node nodePropertiesArray nodeValues' nodeValuesRoot' parentType = .ok check')
    (same : ∀ property ∈ nodePropertiesArray, ∀ outcome,
      levelOutcome runtime node true nodeValues check nodeValuesRoot parentType property = .ok outcome →
      levelOutcome runtime node true nodeValues' check' nodeValuesRoot' parentType property = .ok outcome)
    (returns : resolveLevel runtime node true nodePropertiesArray nodeValues nodeValuesRoot parentType = .ok loaded) :
    resolveLevel runtime node true nodePropertiesArray nodeValues' nodeValuesRoot' parentType = .ok loaded := by
  rw [resolveLevel_eq runtime node level.checked level.ordered] at returns
  rw [resolveLevel_eq runtime node checked' level.ordered]
  refine resolveParameters_congr (fun index _ _ result turn => ?_) returns
  obtain ⟨name, outcome⟩ := result
  obtain ⟨property, member, located, rfl, first⟩ := levelTurn_inv turn
  exact levelTurn_of_outcome located (same property member outcome first)

def Sets (returnDefaults : Bool) (nodePropertiesArray : List (INodeProperties Number))
    (nodeValues : NodeParameterValueType Number) (nodeValuesRoot : Option (NodeParameterValueType Number))
    (parentType : Option ParentType) (check : INodeParameters Number) (name : String)
    (value : NodeParameterValueType Number) : Prop :=
  ∃ property ∈ nodePropertiesArray, property.name = name ∧ ∃ full,
    levelOutcome runtime node returnDefaults nodeValues check nodeValuesRoot parentType property =
      .ok (.set value full)

theorem IsLevel.turns
    (level : @IsLevel _ _ _ runtime node nodePropertiesArray nodeValues nodeValuesRoot parentType check order)
    (outcomes : ∀ property ∈ nodePropertiesArray, ∃ outcome,
      levelOutcome runtime node returnDefaults nodeValues check nodeValuesRoot parentType property = .ok outcome) :
    ∀ index ∈ order, ∃ result,
      levelTurn runtime node returnDefaults nodePropertiesArray nodeValues check nodeValuesRoot parentType index =
        .ok result := by
  intro index member
  obtain ⟨property, located⟩ := level.indexed index member
  obtain ⟨outcome, first⟩ := outcomes property (List.mem_of_getElem? located)
  exact ⟨_, levelTurn_of_outcome located first⟩

theorem IsLevel.returns
    (level : @IsLevel _ _ _ runtime node nodePropertiesArray nodeValues nodeValuesRoot parentType check order)
    (outcomes : ∀ property ∈ nodePropertiesArray, ∃ outcome,
      levelOutcome runtime node returnDefaults nodeValues check nodeValuesRoot parentType property = .ok outcome) :
    ∃ final, resolveLevel runtime node returnDefaults nodePropertiesArray nodeValues nodeValuesRoot parentType =
      .ok final := by
  rw [resolveLevel_eq runtime node level.checked level.ordered]
  exact resolveParameters_returns (level.turns outcomes) {}

theorem IsLevel.sets_iff
    (level : @IsLevel _ _ _ runtime node nodePropertiesArray nodeValues nodeValuesRoot parentType check order)
    (name : String) (value : NodeParameterValueType Number) :
    (∃ index ∈ order, ∃ full,
      levelTurn runtime node returnDefaults nodePropertiesArray nodeValues check nodeValuesRoot parentType index =
        .ok (name, .set value full)) ↔
      @Sets _ _ _ runtime node returnDefaults nodePropertiesArray nodeValues nodeValuesRoot parentType check name
        value := by
  constructor
  · rintro ⟨index, _, full, turn⟩
    obtain ⟨property, member, _, named, outcome⟩ := levelTurn_inv turn
    exact ⟨property, member, named.symm, full, outcome⟩
  · rintro ⟨property, member, rfl, full, outcome⟩
    obtain ⟨index, inOrder, located⟩ := level.covers member
    exact ⟨index, inOrder, full, levelTurn_of_outcome located outcome⟩

theorem IsLevel.withoutDefaults_returned
    (level : @IsLevel _ _ _ runtime node nodePropertiesArray nodeValues nodeValuesRoot parentType check order)
    (outcomes : ∀ property ∈ nodePropertiesArray, ∃ outcome,
      levelOutcome runtime node false nodeValues check nodeValuesRoot parentType property = .ok outcome)
    (leaves : ∃ property ∈ nodePropertiesArray,
      levelOutcome runtime node false nodeValues check nodeValuesRoot parentType property =
        .ok (.returned nodeValues)) :
    resolveLevel runtime node false nodePropertiesArray nodeValues nodeValuesRoot parentType = .ok nodeValues := by
  obtain ⟨final, returns⟩ := level.returns outcomes
  have turns := returns
  rw [resolveLevel_eq runtime node level.checked level.ordered] at turns
  rw [returns]
  refine congrArg Except.ok (resolveParameters_left ?_ ?_ turns)
  · intro index _ name value turn
    obtain ⟨property, _, _, _, outcome⟩ := levelTurn_inv turn
    exact (levelOutcome_returned outcome).2.2.2.1
  · obtain ⟨property, member, outcome⟩ := leaves
    obtain ⟨index, inOrder, located⟩ := level.covers member
    exact ⟨index, inOrder, property.name, levelTurn_of_outcome located outcome⟩

/-- A level that no property leaves comes to what its properties set. -/
theorem IsLevel.collected
    (level : @IsLevel _ _ _ runtime node nodePropertiesArray nodeValues nodeValuesRoot parentType check order)
    (outcomes : ∀ property ∈ nodePropertiesArray, ∃ outcome,
      levelOutcome runtime node returnDefaults nodeValues check nodeValuesRoot parentType property = .ok outcome)
    (stays : ∀ property ∈ nodePropertiesArray, ∀ value,
      levelOutcome runtime node returnDefaults nodeValues check nodeValuesRoot parentType property ≠ .ok
        (.returned value))
    (functional : ∀ name value value',
      @Sets _ _ _ runtime node returnDefaults nodePropertiesArray nodeValues nodeValuesRoot parentType check name value →
      @Sets _ _ _ runtime node returnDefaults nodePropertiesArray nodeValues nodeValuesRoot parentType check name value' →
      value = value') :
    ∃ final : INodeParameters Number,
      resolveLevel runtime node returnDefaults nodePropertiesArray nodeValues nodeValuesRoot parentType =
        .ok (.object final.entries) ∧
      ∀ name value, final.get? name = some value ↔
        @Sets _ _ _ runtime node returnDefaults nodePropertiesArray nodeValues nodeValuesRoot parentType check name value := by
  obtain ⟨final, returns, collected⟩ := @resolveParameters_collected _ _ order {} _ (level.turns outcomes)
    (fun index _ name value turn => by
      obtain ⟨property, member, _, _, outcome⟩ := levelTurn_inv turn
      exact stays property member value outcome)
    functional
    (fun index inOrder name value full turn => (level.sets_iff name value).mp ⟨index, inOrder, full, turn⟩)
    (fun name value found => by cases found)
  refine ⟨final, (resolveLevel_eq runtime node level.checked level.ordered returnDefaults).trans returns,
    fun name value => ?_⟩
  rw [collected, level.sets_iff]
  simp

end

end

end N8n.NodeHelpers
