import N8n.NodeParameters.ParameterLevels

/-! # Saving the parameters of a node

A node is saved without its default and hidden values.  A save leaves something
of a level exactly when `KeepsSomething` says so, and whatever can be loaded can
be saved.
-/

namespace N8n.NodeHelpers

open NodeParameterValueType

variable {Number : Type} [DecidableEq Number] [Zero Number]

section

variable (runtime : DisplayRuntime Number) (node : Option Number)

/-! ## What a save leaves out -/

/-- A parameter that is displayed and not the default; a collection is kept whatever its value is. -/
def isKept (nodePropertiesArray : List (INodeProperties Number)) (nodeValues : NodeParameterValueType Number)
    (check : INodeParameters Number) (nodeValuesRoot : Option (NodeParameterValueType Number))
    (parentType : Option ParentType) (name : String) : Bool :=
  nodeValues.get name ≠ undefined ∧
    nodePropertiesArray.any fun property =>
      decide (property.name = name) && decide (displays runtime node check nodeValuesRoot property = .ok true) &&
        match property with
        | .simple head _ => differsFromDefault parentType head.default (nodeValues.get name)
        | _ => true

/-- The values without the ones that a save leaves out. -/
def keptValues (nodePropertiesArray : List (INodeProperties Number)) (nodeValues : NodeParameterValueType Number)
    (check : INodeParameters Number) (nodeValuesRoot : Option (NodeParameterValueType Number))
    (parentType : Option ParentType) : NodeParameterValueType Number :=
  .object (nodeValues.entries.filter fun entry =>
    isKept runtime node nodePropertiesArray nodeValues check nodeValuesRoot parentType entry.1)

/-- A fixed collection that allows one value has an empty one, so that a save takes the whole level as it is. -/
def savesWhole (nodePropertiesArray : List (INodeProperties Number)) (nodeValues : NodeParameterValueType Number)
    (check : INodeParameters Number) (nodeValuesRoot : Option (NodeParameterValueType Number)) : Bool :=
  nodePropertiesArray.any fun property => match property with
    | .fixedCollection head (some false) options =>
      nodeValues.get head.name ≠ undefined ∧
        displays runtime node check nodeValuesRoot (.fixedCollection head (some false) options) = .ok true ∧
        (nodeValues.get head.name).isTruthy ∧ (nodeValues.get head.name).keys = []
    | _ => false

omit [DecidableEq Number] [Zero Number] in
theorem get_filter (value : NodeParameterValueType Number) (keep : String → Bool) (name : String) :
    (object (value.entries.filter fun entry => keep entry.1) : NodeParameterValueType Number).get name =
      if keep name then value.get name else undefined := by
  have found : ∀ fields : List (String × NodeParameterValueType Number),
      (fields.filter fun entry => keep entry.1).lookup name = if keep name then fields.lookup name else none := by
    intro fields
    induction fields with
    | nil => simp
    | cons field rest ih =>
      obtain ⟨key, fieldValue⟩ := field
      by_cases same : name = key
      · subst same
        cases kept : keep name with
        | true => simp [kept]
        | false => simpa [kept] using ih
      · have differs : (name == key) = false := by simpa using same
        cases kept : keep key with
        | true => simp [kept, List.lookup_cons, differs, ih]
        | false => simp [kept, List.lookup_cons, differs, ih]
  unfold NodeParameterValueType.get
  rw [show (object (value.entries.filter fun entry => keep entry.1) : NodeParameterValueType Number).entries =
    value.entries.filter fun entry => keep entry.1 from rfl, found]
  split <;> rfl

/-- Some value is displayed when the default values are filled in. -/
def ShowsSomething (nodePropertiesArray : List (INodeProperties Number)) (nodeValues : NodeParameterValueType Number)
    (root : NodeParameterValueType Number) : Prop :=
  nodeValues.isTruthy ∧ ∃ check,
    displayValues runtime node nodePropertiesArray nodeValues (some root) (some .fixedCollection) = .ok check ∧
      ∃ property ∈ nodePropertiesArray, displays runtime node check (some root) property = .ok true

/-- Some value is left when the default and the hidden values are dropped. -/
inductive KeepsSomething : List (INodeProperties Number) → NodeParameterValueType Number →
    Option (NodeParameterValueType Number) → Option ParentType → Prop where
  | simple {nodePropertiesArray nodeValues nodeValuesRoot parentType check head type}
      (truthy : nodeValues.isTruthy)
      (checked : displayValues runtime node nodePropertiesArray nodeValues nodeValuesRoot parentType = .ok check)
      (member : .simple head type ∈ nodePropertiesArray)
      (present : nodeValues.get head.name ≠ undefined)
      (shown : displays runtime node check nodeValuesRoot (.simple head type) = .ok true)
      (differs : differsFromDefault parentType head.default (nodeValues.get head.name)) :
      KeepsSomething nodePropertiesArray nodeValues nodeValuesRoot parentType
  | collection {nodePropertiesArray nodeValues nodeValuesRoot parentType check head multipleValues options}
      (truthy : nodeValues.isTruthy)
      (checked : displayValues runtime node nodePropertiesArray nodeValues nodeValuesRoot parentType = .ok check)
      (member : .collection head multipleValues options ∈ nodePropertiesArray)
      (present : nodeValues.get head.name ≠ undefined)
      (shown : displays runtime node check nodeValuesRoot (.collection head multipleValues options) = .ok true) :
      KeepsSomething nodePropertiesArray nodeValues nodeValuesRoot parentType
  | fixedCollection {nodePropertiesArray nodeValues nodeValuesRoot parentType check head multipleValues options}
      (truthy : nodeValues.isTruthy)
      (checked : displayValues runtime node nodePropertiesArray nodeValues nodeValuesRoot parentType = .ok check)
      (member : .fixedCollection head multipleValues options ∈ nodePropertiesArray)
      (present : nodeValues.get head.name ≠ undefined)
      (shown : displays runtime node check nodeValuesRoot (.fixedCollection head multipleValues options) = .ok true)
      (indicated : multipleValues = some true ∧ (nodeValues.get head.name).keys ≠ [] ∨
        multipleValues = some false ∧ (nodeValues.get head.name).isTruthy ∧
          ((nodeValues.get head.name).keys = [] ∨ (nodeValues.get head.name).isPlainObject)) :
      KeepsSomething nodePropertiesArray nodeValues nodeValuesRoot parentType
  | option {nodePropertiesArray nodeValues nodeValuesRoot parentType check head multipleValues options itemName list}
      (truthy : nodeValues.isTruthy)
      (checked : displayValues runtime node nodePropertiesArray nodeValues nodeValuesRoot parentType = .ok check)
      (member : .fixedCollection head multipleValues options ∈ nodePropertiesArray)
      (present : nodeValues.get head.name ≠ undefined)
      (shown : displays runtime node check nodeValuesRoot (.fixedCollection head multipleValues options) = .ok true)
      (single : multipleValues ≠ some true)
      (key : itemName ∈ (nodeValues.get head.name).keys)
      (found : findOption head multipleValues options itemName = some list)
      (inside : KeepsSomething list.1 ((nodeValues.get head.name).get itemName)
        (some (rootValues check nodeValuesRoot)) (some .fixedCollection)) :
      KeepsSomething nodePropertiesArray nodeValues nodeValuesRoot parentType

section

variable {runtime node}

/-- The lists inside a property are saved with something or nothing left according to `KeepsSomething`. -/
def SavesAsKept (list : List (INodeProperties Number)) : Prop :=
  ∀ {nodeValues saved : NodeParameterValueType Number} {nodeValuesRoot : Option (NodeParameterValueType Number)}
    {parentType : Option ParentType},
    resolveLevel runtime node false list nodeValues nodeValuesRoot parentType = .ok saved →
    (saved.entries ≠ [] ↔ KeepsSomething runtime node list nodeValues nodeValuesRoot parentType)

theorem savedOutcome_sets_iff {head : PropertyHead Number} {multipleValues : Option Bool}
    {options : List (String × List (INodeProperties Number))} {root value : NodeParameterValueType Number}
    {given : String → Option (NodeParameterValueType Number)}
    (inside : ∀ itemName ∈ value.keys, ∀ list, findOption head multipleValues options itemName = some list →
      @SavesAsKept _ _ _ runtime node list.1)
    (each : ∀ itemName ∈ value.keys, optionValues head multipleValues options value value
      (fun list _ item => resolveLevel runtime node false list item (some root) (some .fixedCollection)) itemName =
        .ok (given itemName))
    (unreturned : ¬ (multipleValues = some false ∧ value.isTruthy ∧ value.keys = [])) :
    (∃ final full, savedOutcome multipleValues value
        (value.keys.filterMap fun itemName => (given itemName).map (Prod.mk itemName)) = .set final full) ↔
      (multipleValues = some true ∧ value.keys ≠ [] ∨
        multipleValues = some false ∧ value.isTruthy ∧ (value.keys = [] ∨ value.isPlainObject)) ∨
      ∃ itemName list, multipleValues ≠ some true ∧ itemName ∈ value.keys ∧
        findOption head multipleValues options itemName = some list ∧
          KeepsSomething runtime node list.1 (value.get itemName) (some root) (some .fixedCollection) := by
  generalize entries : value.keys.filterMap (fun itemName => (given itemName).map (Prod.mk itemName)) =
    collectionValues
  have some_iff : collectionValues ≠ [] ↔ ∃ itemName ∈ value.keys, ∃ values, given itemName = some values := by
    rw [← entries, ne_eq, List.filterMap_eq_nil_iff]
    push Not
    simp [Option.ne_none_iff_exists']
  have set_iff : (∃ final full, savedOutcome multipleValues value collectionValues = .set final full) ↔
      collectionValues ≠ [] ∨ multipleValues = some false ∧ value.isPlainObject ∧ value.keys ≠ [] := by
    unfold savedOutcome
    split_ifs with filled indicated
    · simp [filled]
    · simp [indicated]
    · simp [filled, indicated]
  rw [set_iff, some_iff]
  by_cases multiple : multipleValues = some true
  · -- every item of an option that can be set multiple times stays
    have all : ∀ itemName ∈ value.keys, ∃ values, given itemName = some values := by
      intro itemName key
      obtain ⟨_, _, _, _, stored⟩ := optionValues_of_multiple multiple (each itemName key)
      exact ⟨_, stored⟩
    constructor
    · rintro (⟨itemName, key, _⟩ | ⟨single, _⟩)
      · exact .inl (.inl ⟨multiple, List.ne_nil_of_mem key⟩)
      · simp [multiple] at single
    · rintro ((⟨_, some⟩ | ⟨single, _⟩) | ⟨_, _, single, _⟩)
      · obtain ⟨itemName, key⟩ := List.exists_mem_of_ne_nil _ some
        exact .inl ⟨itemName, key, all itemName key⟩
      · simp [multiple] at single
      · exact absurd multiple single
  · have given_iff : ∀ itemName ∈ value.keys, (∃ values, given itemName = some values) ↔
        ∃ list, findOption head multipleValues options itemName = some list ∧
          KeepsSomething runtime node list.1 (value.get itemName) (some root) (some .fixedCollection) := by
      intro itemName key
      have result := each itemName key
      cases found : findOption head multipleValues options itemName with
      | none =>
        rw [optionValues_of_missing multiple found] at result
        simp [← Except.ok.inj result]
      | some list =>
        rw [optionValues_of_found multiple (not_nothing_of_mem_keys key) found] at result
        obtain ⟨tempValue, saved, rest⟩ := Loop.bind_inv result
        have kept := inside itemName key list found saved
        rw [← Except.ok.inj rest]
        by_cases nothing : tempValue.entries = []
        · simpa [nothing] using kept
        · simpa [nothing] using kept
    constructor
    · rintro (⟨itemName, key, stored⟩ | ⟨single, plain, some⟩)
      · obtain ⟨list, found, kept⟩ := (given_iff itemName key).mp stored
        exact .inr ⟨itemName, list, multiple, key, found, kept⟩
      · refine .inl (.inr ⟨single, ?_, .inr plain⟩)
        cases value with
        | object fields => rfl
        | _ => cases plain
    · rintro ((⟨impossible, _⟩ | ⟨single, truthy, none | plain⟩) | ⟨itemName, list, _, key, found, kept⟩)
      · exact absurd impossible multiple
      · exact absurd ⟨single, truthy, none⟩ unreturned
      · exact .inr ⟨single, plain, fun none => unreturned ⟨single, truthy, none⟩⟩
      · exact .inl ⟨itemName, key, (given_iff itemName key).mpr ⟨list, found, kept⟩⟩

variable {parentType : Option ParentType} {nodeValues : NodeParameterValueType Number}

theorem visited_iff {name : String} :
    ¬ IsSkipped false nodeValues parentType name ↔ nodeValues.isTruthy ∧ nodeValues.get name ≠ undefined := by
  simp [IsSkipped]

omit [DecidableEq Number] [Zero Number] in
theorem entries_ne_nil_of_get {value : NodeParameterValueType Number} {name : String}
    (present : value.get name ≠ undefined) : value.entries ≠ [] := by
  intro none
  exact present (by simp [NodeParameterValueType.get, none])

/-- What is left of a displayed property that is stored. -/
def LeavesSomething (nodeValues root : NodeParameterValueType Number) (parentType : Option ParentType) :
    INodeProperties Number → Prop
  | .simple head _ => differsFromDefault parentType head.default (nodeValues.get head.name)
  | .collection _ _ _ => True
  | .fixedCollection head multipleValues options =>
    (multipleValues = some true ∧ (nodeValues.get head.name).keys ≠ [] ∨
      multipleValues = some false ∧ (nodeValues.get head.name).isTruthy ∧
        ((nodeValues.get head.name).keys = [] ∨ (nodeValues.get head.name).isPlainObject)) ∨
    ∃ itemName list, multipleValues ≠ some true ∧ itemName ∈ (nodeValues.get head.name).keys ∧
      findOption head multipleValues options itemName = some list ∧
        KeepsSomething runtime node list.1 ((nodeValues.get head.name).get itemName) (some root)
          (some .fixedCollection)

theorem keepsSomething_iff_leaves {list : List (INodeProperties Number)}
    {nodeValuesRoot : Option (NodeParameterValueType Number)}
    {check : INodeParameters Number}
    (checked : displayValues runtime node list nodeValues nodeValuesRoot parentType = .ok check) :
    KeepsSomething runtime node list nodeValues nodeValuesRoot parentType ↔
      ∃ property ∈ list, ¬ IsSkipped false nodeValues parentType property.name ∧
        displays runtime node check nodeValuesRoot property = .ok true ∧
          @LeavesSomething _ _ _ runtime node nodeValues (rootValues check nodeValuesRoot) parentType property := by
  constructor
  · intro keeps
    cases keeps with
    | simple truthy checked' member present shown differs =>
      obtain rfl := Except.ok.inj (checked.symm.trans checked')
      exact ⟨_, member, visited_iff.mpr ⟨truthy, present⟩, shown, differs⟩
    | collection truthy checked' member present shown =>
      obtain rfl := Except.ok.inj (checked.symm.trans checked')
      exact ⟨_, member, visited_iff.mpr ⟨truthy, present⟩, shown, trivial⟩
    | fixedCollection truthy checked' member present shown indicated =>
      obtain rfl := Except.ok.inj (checked.symm.trans checked')
      exact ⟨_, member, visited_iff.mpr ⟨truthy, present⟩, shown, .inl indicated⟩
    | option truthy checked' member present shown single key found inside =>
      obtain rfl := Except.ok.inj (checked.symm.trans checked')
      exact ⟨_, member, visited_iff.mpr ⟨truthy, present⟩, shown, .inr ⟨_, _, single, key, found, inside⟩⟩
  · rintro ⟨property, member, visited, shown, leaves⟩
    obtain ⟨truthy, present⟩ := visited_iff.mp visited
    cases property with
    | simple head type => exact .simple truthy checked member present shown leaves
    | collection head multipleValues options => exact .collection truthy checked member present shown
    | fixedCollection head multipleValues options =>
      rcases leaves with indicated | ⟨itemName, option, single, key, found, kept⟩
      · exact .fixedCollection truthy checked member present shown indicated
      · exact .option truthy checked member present shown single key found kept

variable {property : INodeProperties Number} {outcome : Outcome Number}

theorem displayedOutcome_sets_iff {nodeValues root : NodeParameterValueType Number}
    (inside : ∀ list ∈ property.nested, @SavesAsKept _ _ _ runtime node list)
    (present : nodeValues.get property.name ≠ undefined)
    (returns : displayedOutcome runtime node false nodeValues root parentType property = .ok outcome)
    (stays : ∀ value, outcome ≠ .returned value) :
    (∃ value full, outcome = .set value full) ↔
      @LeavesSomething _ _ _ runtime node nodeValues root parentType property := by
  cases property with
  | simple head type =>
    simp only [displayedOutcome, simpleOutcome, Bool.false_eq_true, ↓reduceIte, Except.ok.injEq] at returns
    subst returns
    rw [LeavesSomething]
    cases differs : differsFromDefault parentType head.default (nodeValues.get head.name) <;> simp
  | collection head multipleValues options =>
    change nodeValues.get head.name ≠ undefined at present
    rw [displayedOutcome_collection present] at returns
    rw [LeavesSomething, iff_true]
    split at returns
    · exact ⟨_, _, (Except.ok.inj returns).symm⟩
    · obtain ⟨nested, _, rest⟩ := Loop.bind_inv returns
      exact ⟨_, _, (Except.ok.inj rest).symm⟩
  | fixedCollection head multipleValues options =>
    obtain ⟨given, each, rfl⟩ := fixedCollectionOutcome_saved returns stays
    refine savedOutcome_sets_iff (fun _ _ list _ => inside list.1 list.2) each fun returned => ?_
    rw [displayedOutcome, fixedCollectionOutcome_withoutDefaults, if_pos returned] at returns
    exact stays nodeValues (Except.ok.inj returns).symm

/-- A save leaves nothing of a level of which nothing is kept, and something otherwise. -/
theorem savesAsKept (list : List (INodeProperties Number)) : @SavesAsKept _ _ _ runtime node list := by
  induction size : sizeOf list using Nat.strong_induction_on generalizing list with
  | _ size ih =>
    subst size
    have inside : ∀ property ∈ list, ∀ nested ∈ property.nested, @SavesAsKept _ _ _ runtime node nested := by
      intro property member nested insideNested
      exact ih _ (Nat.lt_trans (INodeProperties.sizeOf_nested_lt insideNested)
        (List.sizeOf_lt_of_mem member)) nested rfl
    intro nodeValues saved nodeValuesRoot parentType returns
    obtain ⟨check, checked, ⟨⟨property, member, left⟩, rfl⟩ | ⟨_, outcomes, _, empty⟩⟩ := resolveLevel_inv returns
    · -- the level is saved as it is, with the empty fixed collection in it
      obtain ⟨visited, shown, _, _, head, options, rfl, truthy, none⟩ := levelOutcome_returned left
      obtain ⟨levelTruthy, present⟩ := visited_iff.mp visited
      refine ⟨fun _ => ?_, fun _ => entries_ne_nil_of_get present⟩
      exact .fixedCollection levelTruthy checked member present shown (.inr ⟨rfl, truthy, .inl none⟩)
    · rw [ne_eq, empty, keepsSomething_iff_leaves checked]
      push Not
      constructor
      · rintro ⟨property, member, value, full, outcome⟩
        rcases levelOutcome_inv outcome with ⟨_, impossible⟩ | ⟨visited, ⟨_, impossible⟩ | ⟨shown, returned⟩⟩
        · cases impossible
        · cases impossible
        · exact ⟨property, member, visited, shown, (displayedOutcome_sets_iff (inside property member)
            (visited_iff.mp visited).2 returned (fun _ impossible => by cases impossible)).mp ⟨value, full, rfl⟩⟩
      · rintro ⟨property, member, visited, shown, leaves⟩
        obtain ⟨outcome, first, stays⟩ := outcomes property member
        have returned := first
        rw [levelOutcome_of_displayed visited shown] at returned
        obtain ⟨value, full, rfl⟩ := (displayedOutcome_sets_iff (inside property member)
          (visited_iff.mp visited).2 returned stays).mpr leaves
        exact ⟨property, member, value, full, first⟩

theorem showsSomething_iff {list : List (INodeProperties Number)} {item root loaded : NodeParameterValueType Number}
    (returns : resolveLevel runtime node true list item (some root) (some .fixedCollection) = .ok loaded) :
    loaded.entries ≠ [] ↔ ShowsSomething runtime node list item root := by
  obtain ⟨check, checked, ⟨⟨property, _, left⟩, _⟩ | ⟨_, outcomes, _, empty⟩⟩ := resolveLevel_inv returns
  · cases (levelOutcome_returned left).2.2.1
  · have visited : ∀ name, ¬ IsSkipped true item (some .fixedCollection) name ↔ item.isTruthy := by
      simp [IsSkipped]
    rw [ne_eq, empty]
    push Not
    constructor
    · rintro ⟨property, member, value, full, outcome⟩
      rcases levelOutcome_inv outcome with ⟨_, impossible⟩ | ⟨notSkipped, ⟨_, impossible⟩ | ⟨shown, _⟩⟩
      · cases impossible
      · cases impossible
      · exact ⟨(visited _).mp notSkipped, check, checked, property, member, shown⟩
    · rintro ⟨truthy, check', checked', property, member, shown⟩
      obtain rfl := Except.ok.inj (checked.symm.trans checked')
      obtain ⟨outcome, first, _⟩ := outcomes property member
      have displayed := first
      rw [levelOutcome_of_displayed ((visited _).mpr truthy) shown] at displayed
      obtain ⟨value, rfl⟩ := displayedOutcome_withDefaults_sets displayed
      exact ⟨property, member, value, true, first⟩

omit [DecidableEq Number] [Zero Number] in
theorem simple_or_not (property : INodeProperties Number) :
    (∃ head type, property = .simple head type) ∨ ∀ head type, property ≠ .simple head type := by
  cases property with
  | simple head type => exact .inl ⟨head, type, rfl⟩
  | collection head multipleValues options => exact .inr fun _ _ impossible => by cases impossible
  | fixedCollection head multipleValues options => exact .inr fun _ _ impossible => by cases impossible

section

variable {list : List (INodeProperties Number)} {nodeValues : NodeParameterValueType Number}
  {root : Option (NodeParameterValueType Number)} {parentType : Option ParentType} {check : INodeParameters Number}

theorem isKept_iff {name : String} :
    isKept runtime node list nodeValues check root parentType name = true ↔ nodeValues.get name ≠ undefined ∧
      ∃ property ∈ list, property.name = name ∧ displays runtime node check root property = .ok true ∧
        ∀ head type, property = .simple head type →
          differsFromDefault parentType head.default (nodeValues.get name) = true := by
  simp only [isKept, List.any_eq_true, Bool.and_eq_true, decide_eq_true_eq, and_assoc]
  refine and_congr_right fun _ => exists_congr fun property => and_congr_right fun _ => and_congr_right fun _ =>
    and_congr_right fun _ => ?_
  cases property with
  | simple head type => simp
  | collection head multipleValues options => simp
  | fixedCollection head multipleValues options => simp

theorem savesWhole_iff (truthy : nodeValues.isTruthy) :
    savesWhole runtime node list nodeValues check root = true ↔ ∃ property ∈ list,
      levelOutcome runtime node false nodeValues check root parentType property = .ok (.returned nodeValues) := by
  rw [savesWhole, List.any_eq_true]
  refine exists_congr fun property => and_congr_right fun _ => ?_
  constructor
  · intro indicated
    split at indicated
    next head options _ =>
      simp only [ne_eq, decide_eq_true_eq] at indicated
      obtain ⟨present, shown, valueTruthy, empty⟩ := indicated
      have visited : ¬ IsSkipped false nodeValues parentType
          (INodeProperties.fixedCollection head (some false) options).name :=
        visited_iff.mpr ⟨truthy, present⟩
      rw [levelOutcome_of_displayed visited shown, displayedOutcome, fixedCollectionOutcome_withoutDefaults]
      exact if_pos ⟨rfl, valueTruthy, empty⟩
    · cases indicated
  · intro left
    obtain ⟨visited, shown, _, _, head, options, rfl, valueTruthy, empty⟩ := levelOutcome_returned left
    have present := (visited_iff.mp visited).2
    simp only [ne_eq, decide_eq_true_eq]
    exact ⟨present, shown, valueTruthy, empty⟩

theorem levelOutcome_saved {property : INodeProperties Number} {value : NodeParameterValueType Number} {full : Bool}
    (returns : levelOutcome runtime node false nodeValues check root parentType property = .ok (.set value full)) :
    nodeValues.get property.name ≠ undefined ∧ displays runtime node check root property = .ok true ∧
      displayedOutcome runtime node false nodeValues (rootValues check root) parentType property =
        .ok (.set value full) ∧
      ∀ head type, property = .simple head type →
        differsFromDefault parentType head.default (nodeValues.get head.name) = true ∧
          value = nodeValues.get head.name := by
  rcases levelOutcome_inv returns with ⟨_, impossible⟩ | ⟨visited, ⟨_, impossible⟩ | ⟨shown, returned⟩⟩
  · cases impossible
  · cases impossible
  · refine ⟨(visited_iff.mp visited).2, shown, returned, ?_⟩
    rintro head type rfl
    simp only [displayedOutcome, simpleOutcome, Bool.false_eq_true, if_false, Except.ok.injEq] at returned
    split at returned
    next differs =>
      cases returned
      exact ⟨differs, rfl⟩
    · cases returned

end

/-! ## The options of a fixed collection -/

section

variable {head : PropertyHead Number} {multipleValues : Option Bool}
  {options : List (String × List (INodeProperties Number))} {root : NodeParameterValueType Number}
  {itemName : String}

variable (runtime node) in
/-- The values of an option, resolved with the given values at the root. -/
def resolveOption (returnDefaults : Bool) (head : PropertyHead Number) (multipleValues : Option Bool)
    (options : List (String × List (INodeProperties Number)))
      (root ownValue propertyValues : NodeParameterValueType Number)
    (itemName : String) : Except Thrown (Option (NodeParameterValueType Number)) :=
  optionValues head multipleValues options ownValue propertyValues
    (fun list _ item => resolveLevel runtime node returnDefaults list item (some root) (some .fixedCollection)) itemName

variable {returnDefaults : Bool}

theorem arrayValue_inv {item result : NodeParameterValueType Number}
    (returns : arrayValue head multipleValues options
      (fun list _ item => resolveLevel runtime node returnDefaults list item (some root) (some .fixedCollection))
      itemName item = .ok result) :
    ∃ option, findOption head multipleValues options itemName = some option ∧
      resolveLevel runtime node returnDefaults option.1 item (some root) (some .fixedCollection) = .ok result := by
  rw [arrayValue] at returns
  split at returns
  · cases returns
  next option found => exact ⟨option, found, returns⟩

theorem arrayValue_of_found {option} (item : NodeParameterValueType Number)
    (found : findOption head multipleValues options itemName = some option) :
    arrayValue head multipleValues options
        (fun list _ item => resolveLevel runtime node returnDefaults list item (some root) (some .fixedCollection))
        itemName item =
      resolveLevel runtime node returnDefaults option.1 item (some root) (some .fixedCollection) := by
  rw [arrayValue, found]

variable {ownValue propertyValues : NodeParameterValueType Number}

theorem resolveOption_of_multiple {items values}
    (multiple : multipleValues = some true) (iterated : iterate (propertyValues.get itemName) = .ok items)
    (mapped : items.mapM (arrayValue head multipleValues options
      (fun list _ item => resolveLevel runtime node returnDefaults list item (some root) (some .fixedCollection))
      itemName) = .ok values) :
    resolveOption runtime node returnDefaults head multipleValues options root ownValue propertyValues itemName =
      .ok (some (.array (values.filter (· ≠ null)))) := by
  rw [resolveOption, optionValues, if_pos multiple, iterated]
  exact congrArg (fun result : Except Thrown (List (NodeParameterValueType Number)) =>
    result >>= fun values => Except.ok (some (array (values.filter (· ≠ null))))) mapped

theorem resolveOption_of_single {option}
    (single : multipleValues ≠ some true) (present : ownValue ≠ undefined ∧ ownValue ≠ null)
    (found : findOption head multipleValues options itemName = some option) :
    resolveOption runtime node returnDefaults head multipleValues options root ownValue propertyValues itemName = (do
      let tempValue ← resolveLevel runtime node returnDefaults option.1 (ownValue.get itemName) (some root)
        (some .fixedCollection)
      .ok (if tempValue.entries = [] then none else some (.object tempValue.entries))) :=
  optionValues_of_found single present found

theorem resolveOption_present {option result}
    (single : multipleValues ≠ some true) (found : findOption head multipleValues options itemName = some option)
    (returns : resolveOption runtime node returnDefaults head multipleValues options root ownValue propertyValues
      itemName = .ok result) : ownValue ≠ undefined ∧ ownValue ≠ null := by
  by_contra nothing
  rw [not_and_or, not_not, not_not] at nothing
  rw [resolveOption, optionValues, if_neg single, found] at returns
  simp only [if_pos nothing] at returns
  cases returns

/-! ## What can be loaded can be saved -/

variable (runtime node) in
def SavesWhenLoaded (list : List (INodeProperties Number)) : Prop :=
  ∀ (nodeValues loaded : NodeParameterValueType Number) (nodeValuesRoot : Option (NodeParameterValueType Number))
    (parentType : Option ParentType),
    resolveLevel runtime node true list nodeValues nodeValuesRoot parentType = .ok loaded →
      ∃ saved, resolveLevel runtime node false list nodeValues nodeValuesRoot parentType = .ok saved

theorem resolveOption_saves
    {result : Option (NodeParameterValueType Number)}
    (inside : ∀ list ∈ (INodeProperties.fixedCollection head multipleValues options).nested,
      SavesWhenLoaded runtime node list)
    (returns : resolveOption runtime node true head multipleValues options root ownValue propertyValues itemName =
      .ok result) :
    ∃ saved, resolveOption runtime node false head multipleValues options root ownValue propertyValues itemName =
      .ok saved := by
  by_cases multiple : multipleValues = some true
  · obtain ⟨items, values, iterated, mapped, rfl⟩ := optionValues_of_multiple multiple returns
    obtain ⟨saved, saves⟩ := @Loop.mapM_returns _ _ _ (arrayValue head multipleValues options
      (fun list _ item => resolveLevel runtime node false list item (some root) (some .fixedCollection)) itemName)
      items (fun item member => by
        obtain ⟨value, _, first⟩ := Loop.exists_result_of_mem_mapM mapped member
        obtain ⟨option, found, loaded⟩ := arrayValue_inv first
        obtain ⟨saved, saves⟩ := inside option.1 option.2 item value _ _ loaded
        exact ⟨saved, by rw [arrayValue_of_found item found, saves]⟩)
    exact ⟨_, resolveOption_of_multiple multiple iterated saves⟩
  · cases found : findOption head multipleValues options itemName with
    | none => exact ⟨none, optionValues_of_missing multiple found⟩
    | some option =>
      have present := resolveOption_present multiple found returns
      rw [resolveOption_of_single multiple present found] at returns ⊢
      obtain ⟨loaded, first, _⟩ := Loop.bind_inv returns
      obtain ⟨saved, saves⟩ := inside option.1 option.2 _ loaded _ _ first
      rw [saves]
      exact ⟨_, rfl⟩

end

theorem displayedOutcome_saves {nodeValues root : NodeParameterValueType Number}
    (inside : ∀ nested ∈ property.nested, SavesWhenLoaded runtime node nested)
    (present : nodeValues.get property.name ≠ undefined)
    (returns : displayedOutcome runtime node true nodeValues root parentType property = .ok outcome) :
    ∃ saved, displayedOutcome runtime node false nodeValues root parentType property = .ok saved := by
  cases property with
  | simple head type => exact ⟨_, rfl⟩
  | collection head multipleValues options =>
    change nodeValues.get head.name ≠ undefined at present
    rw [displayedOutcome_collection present] at returns ⊢
    split at returns
    next multiple => exact ⟨_, if_pos multiple⟩
    next single =>
      obtain ⟨loaded, first, _⟩ := Loop.bind_inv returns
      obtain ⟨saved, saves⟩ := inside options (List.mem_singleton_self options) _ loaded _ _ first
      rw [if_neg single, saves]
      exact ⟨_, rfl⟩
  | fixedCollection head multipleValues options =>
    change nodeValues.get head.name ≠ undefined at present
    by_cases returned : multipleValues = some false ∧ (nodeValues.get head.name).isTruthy ∧
        (nodeValues.get head.name).keys = []
    · refine ⟨.returned nodeValues, ?_⟩
      rw [displayedOutcome, fixedCollectionOutcome_withoutDefaults, if_pos returned]
    · rw [displayedOutcome] at returns
      obtain ⟨loaded, each, _⟩ := fixedCollectionOutcome_loaded (if_neg present) returns
      have saves : ∀ itemName, ∃ saved, itemName ∈ (nodeValues.get head.name).keys →
          resolveOption runtime node false head multipleValues options root (nodeValues.get head.name)
            (nodeValues.get head.name) itemName = .ok saved := by
        intro itemName
        by_cases key : itemName ∈ (nodeValues.get head.name).keys
        · obtain ⟨saved, saves⟩ := resolveOption_saves inside (each itemName key)
          exact ⟨saved, fun _ => saves⟩
        · exact ⟨none, fun key' => absurd key' key⟩
      choose saved saves using saves
      exact ⟨_, fixedCollectionOutcome_saves returned saves⟩

theorem levelOutcome_saves {check : INodeParameters Number}
    {nodeValuesRoot : Option (NodeParameterValueType Number)}
    (inside : ∀ nested ∈ property.nested, SavesWhenLoaded runtime node nested)
    (returns : levelOutcome runtime node true nodeValues check nodeValuesRoot parentType property = .ok outcome) :
    ∃ saved, levelOutcome runtime node false nodeValues check nodeValuesRoot parentType property = .ok saved := by
  by_cases visited : IsSkipped false nodeValues parentType property.name
  · exact ⟨.skip, levelOutcome_of_skipped visited check nodeValuesRoot⟩
  · obtain ⟨truthy, present⟩ := visited_iff.mp visited
    rcases levelOutcome_inv returns with ⟨falsy | ⟨missing, _⟩, _⟩ | ⟨_, ⟨hidden, _⟩ | ⟨shown, displayed⟩⟩
    · exact absurd truthy falsy
    · exact absurd missing present
    · exact ⟨.skip, levelOutcome_of_hidden hidden⟩
    · rw [levelOutcome_of_displayed visited shown]
      exact displayedOutcome_saves inside present displayed

theorem saves_of_loads (list : List (INodeProperties Number)) : SavesWhenLoaded runtime node list := by
  induction size : sizeOf list using Nat.strong_induction_on generalizing list with
  | _ size ih =>
    subst size
    intro nodeValues loaded nodeValuesRoot parentType returns
    obtain ⟨check, order, level, outcomes⟩ := IsLevel.of_withDefaults returns
    refine level.returns fun property member => ?_
    obtain ⟨outcome, first⟩ := outcomes property member
    refine levelOutcome_saves (fun nested insideNested => ?_) first
    exact ih _ (Nat.lt_trans (INodeProperties.sizeOf_nested_lt insideNested)
      (List.sizeOf_lt_of_mem member)) nested rfl

end

end

end N8n.NodeHelpers
