import N8n.Library.ListMap
import N8n.Library.Loop
import N8n.NodeParameters.NodeProperties

/-! # Required parameters that are missing

`getParameterIssues` of `NodeHelpers.ts`, as far as it is
about required parameters and the numbers of fields: the path of a nested
property is a text that the recursion puts together, and both the value and the
display conditions are read at such a path.  What it says about the content of
a value (its type, the mode of a resource locator, a filter) is left out.
-/

namespace N8n.NodeHelpers

open NodeParameterValueType

/-- What a property declares for its check; the limits are those of its `typeOptions`. -/
structure CheckedHead (Number : Type) extends PropertyHead Number where
  displayName : String
  required : Bool := false
  multipleValues : Option Bool := none
  minRequiredFields : Option Nat := none
  maxAllowedFields : Option Nat := none

inductive CheckedProperty (Number : Type) where
  | simple (head : CheckedHead Number) (type : SimpleType)
  | collection (head : CheckedHead Number) (options : List (CheckedProperty Number))
  /-- Its options have a name and the properties of their values. -/
  | fixedCollection (head : CheckedHead Number) (options : List (String × List (CheckedProperty Number)))

/-- The messages about each parameter name; none at all is `parameters === undefined`. -/
abbrev INodeIssues := OrderedMap String (List String)

/-- `path ? path + '.' + parameterName : parameterName` -/
def parameterPath (path parameterName : String) : String :=
  if path = "" then parameterName else path ++ "." ++ parameterName

def requiredMessage (displayName : String) : String := "Parameter \"" ++ displayName ++ "\" is required."

section

variable {Number : Type}

/-- `Array.isArray(value) ? value : []` -/
def NodeParameterValueType.items : NodeParameterValueType Number → List (NodeParameterValueType Number)
  | array items => items
  | _ => []

/-- The error about the number of fields of an option; a limit of zero is none. -/
def fieldsError (head : CheckedHead Number) (fields : Nat) : Option String :=
  let limited (limit : Nat) := toString limit ++ if limit = 1 then " field is " else " fields are "
  match head.maxAllowedFields.filter (fun limit => limit ≠ 0 ∧ limit < fields),
      head.minRequiredFields.filter (fun limit => fields < limit) with
  | some limit, _ => some ("At most " ++ limited limit ++ "allowed.")
  | none, some limit => some ("At least " ++ limited limit ++ "required.")
  | none, none => none

/-- The types whose values `addToIssuesIfMissing` looks at. -/
def canMiss : Option SimpleType → Bool
  | some .string | some .dateTime | some .options | some .multiOptions | some .resourceLocator
  | some .workflowSelector => true
  | _ => false

mutual

/-- Some property of the tree is required, with a type whose values can be missing. -/
def requires : CheckedProperty Number → Bool
  | .simple head type => head.required && canMiss (some type)
  | .collection _ options => requiresOne options
  | .fixedCollection _ options => requiresIn options

def requiresOne : List (CheckedProperty Number) → Bool
  | [] => false
  | child :: rest => requires child || requiresOne rest

def requiresIn : List (String × List (CheckedProperty Number)) → Bool
  | [] => false
  | (_, values) :: rest => requiresOne values || requiresIn rest

end

variable [DecidableEq Number] [Zero Number]

def isValidResourceLocatorParameterValue (value : NodeParameterValueType Number) : Except Thrown Bool :=
  if value = null then .error (.typeError "Cannot read properties of null (reading 'value')")
  else if value.isObjectType then
    match value.get "value" with
    | number _ => .ok true -- Accept all numbers
    | other => .ok other.isTruthy
  else .ok value.isTruthy

/-- Whether `addToIssuesIfMissing` takes the value to be missing; a collection has no such type. -/
def isMissingValue (type : Option SimpleType) (value : NodeParameterValueType Number) : Except Thrown Bool :=
  match type with
  | some .string | some .dateTime | some .options => .ok (value = string "" ∨ value = undefined)
  | some .multiOptions => .ok (value = array [])
  | some .resourceLocator | some .workflowSelector => do
    let valid ← isValidResourceLocatorParameterValue value
    .ok ¬ valid
  | _ => .ok false

def addToIssuesIfMissing (head : CheckedHead Number) (type : Option SimpleType) (foundIssues : INodeIssues)
    (value : NodeParameterValueType Number) : Except Thrown INodeIssues := do
  if ← isMissingValue type value then .ok (foundIssues.append head.name [requiredMessage head.displayName])
  else .ok foundIssues

variable (runtime : DisplayRuntime Number) (nodeValues : NodeParameterValueType Number) (node : Option Number)

/-- Returns if the given parameter should be displayed or not considering the path
to the properties -/
def displayParameterPath (head : CheckedHead Number) (path : String) : Except Thrown Bool :=
  let resolvedNodeValues := if path = "" then nodeValues else runtime.get nodeValues path
  -- The values of the root are those of `parameters` when that is the first part of the path.
  let nodeValuesRoot :=
    if path.toList.takeWhile (· ≠ '.') = "parameters".toList then runtime.get nodeValues "parameters" else nodeValues
  -- Of the property it reads nothing but the display options.
  displayParameter runtime resolvedNodeValues (.collection head.toPropertyHead head.multipleValues []) node
    (if nodeValuesRoot.isTruthy then some nodeValuesRoot else none)

def getParameterValueByPath (parameterName path : String) : NodeParameterValueType Number :=
  runtime.get nodeValues (parameterPath path parameterName)

def requiredIssues (head : CheckedHead Number) (type : Option SimpleType) (isDisplayed : Bool) (path : String) :
    Except Thrown INodeIssues :=
  if head.required ∧ isDisplayed then
    let value := getParameterValueByPath runtime nodeValues head.name path
    if head.multipleValues.isSome then
      -- Multiple can be set so will be an array
      value.items.foldlM (addToIssuesIfMissing head type) ∅
    else addToIssuesIfMissing head type ∅ value
  else .ok ∅

/-- The path that the names of the options get appended to. -/
def optionBasePath (head : CheckedHead Number) (path : String) : String :=
  let basePath := if path = "" then "" else path ++ "."
  if basePath = "" then head.name ++ "." else basePath ++ "."

def optionValue (head : CheckedHead Number) (path option : String) : NodeParameterValueType Number :=
  getParameterValueByPath runtime nodeValues option
    (String.ofList (optionBasePath head path).toList.dropLast)

def addFieldIssues (head : CheckedHead Number) (path : String) (foundIssues : INodeIssues) (option : String) :
    INodeIssues :=
  match fieldsError head (optionValue runtime nodeValues head path option).items.length with
  | some error => foundIssues.append head.name [error]
  | none => foundIssues

def optionPaths (head : CheckedHead Number) (path option : String) : List String :=
  let value := optionValue runtime nodeValues head path option
  if value = undefined then []
  else if head.multipleValues.isSome then
    (List.range value.items.length).map fun i => optionBasePath head path ++ option ++ "[" ++ toString i ++ "]"
  else [optionBasePath head path ++ option]

mutual

def getParameterIssues : CheckedProperty Number → String → Except Thrown INodeIssues
  | .simple head type, path => do
    let isDisplayed ← displayParameterPath runtime nodeValues node head path
    requiredIssues runtime nodeValues head (some type) isDisplayed path
  | .collection head options, path => do
    let isDisplayed ← displayParameterPath runtime nodeValues node head path
    let foundIssues ← requiredIssues runtime nodeValues head none isDisplayed path
    let basePath := if path = "" then "" else path ++ "."
    mergeChildIssues options basePath foundIssues
  | .fixedCollection head options, path => do
    let isDisplayed ← displayParameterPath runtime nodeValues node head path
    let foundIssues ← requiredIssues runtime nodeValues head none isDisplayed path
    if isDisplayed then
      mergeOptionIssues options (optionPaths runtime nodeValues head path)
        ((options.map Prod.fst).foldl (addFieldIssues runtime nodeValues head path) foundIssues)
    else .ok foundIssues

def mergeChildIssues : List (CheckedProperty Number) → String → INodeIssues → Except Thrown INodeIssues
  | [], _, foundIssues => .ok foundIssues
  | child :: rest, basePath, foundIssues => do
    let propertyIssues ← getParameterIssues child basePath
    mergeChildIssues rest basePath (foundIssues.merge propertyIssues)

/-- The issues of the properties of every option, at each of its paths. -/
def mergeOptionIssues : List (String × List (CheckedProperty Number)) → (String → List String) → INodeIssues →
    Except Thrown INodeIssues
  | [], _, foundIssues => .ok foundIssues
  | (option, values) :: rest, paths, foundIssues => do
    let foundIssues ← (paths option).foldlM (fun foundIssues basePath =>
      mergeChildIssues values basePath foundIssues) foundIssues
    mergeOptionIssues rest paths foundIssues

end

/-! ## The missing values that are due -/

/-- The missing ones among the values of a property, each with the name and the message of it. -/
def missingIssues (head : CheckedHead Number) (type : Option SimpleType)
    (values : List (NodeParameterValueType Number)) : List (String × String) :=
  (values.filter fun value => isMissingValue type value = .ok true).map fun _ =>
    (head.name, requiredMessage head.displayName)

def isShown (head : CheckedHead Number) (path : String) : Bool :=
  displayParameterPath runtime nodeValues node head path = .ok true

/-- The paths to the entries of what is at the path; there are none when it is not set. -/
def entryPaths (multipleValues : Option Bool) (path : String) : List String :=
  let value := runtime.get nodeValues path
  if value = undefined then []
  else if multipleValues = some true then
    (List.range value.items.length).map fun i => path ++ "[" ++ toString i ++ "]"
  else [path]

mutual

/-- The missing values of the required properties, each read at its own full path.  A property that stands in an
other one is asked for in every entry of it, and is not displayed when the other one is not. -/
def dueIssues : CheckedProperty Number → String → List (String × String)
  | .simple head type, path =>
    if head.required ∧ isShown runtime nodeValues node head path then
      let value := getParameterValueByPath runtime nodeValues head.name path
      missingIssues head (some type) (if head.multipleValues = some true then value.items else [value])
    else []
  | .collection head options, path =>
    if isShown runtime nodeValues node head path then
      (entryPaths runtime nodeValues head.multipleValues (parameterPath path head.name)).flatMap fun entry =>
        dueInEntry options entry
    else []
  | .fixedCollection head options, path =>
    if isShown runtime nodeValues node head path then
      dueInOptions options head.multipleValues (parameterPath path head.name)
    else []

def dueInEntry : List (CheckedProperty Number) → String → List (String × String)
  | [], _ => []
  | child :: rest, entry => dueIssues child entry ++ dueInEntry rest entry

def dueInOptions : List (String × List (CheckedProperty Number)) → Option Bool → String → List (String × String)
  | [], _, _ => []
  | (option, values) :: rest, multipleValues, path =>
    ((entryPaths runtime nodeValues multipleValues (parameterPath path option)).flatMap fun entry =>
      dueInEntry values entry) ++ dueInOptions rest multipleValues path

end

/-- How often an issue, a name and a message, was found. -/
def INodeIssues.occurrences (issues : INodeIssues) (issue : String × String) : Nat :=
  (issues.listAt issue.1).count issue.2

mutual

/-- Of the required properties that the check gets to, each stands where it looks for them: at the first level or
in an entry of a fixed collection of that level, with `multipleValues` not set to `false` for either. -/
def InPlace : CheckedProperty Number → String → Prop
  | .simple head type, path =>
    head.required → canMiss (some type) → isShown runtime nodeValues node head path → head.multipleValues ≠ some false
  | .collection _ options, _ => requiresOne options = false
  | .fixedCollection head options, path =>
    isShown runtime nodeValues node head path →
      if path = "" ∧ head.name ≠ "" then OptionsInPlace options head.multipleValues head.name
      else requiresIn options = false

def EntryInPlace : List (CheckedProperty Number) → String → Prop
  | [], _ => True
  | child :: rest, entry => InPlace child entry ∧ EntryInPlace rest entry

def OptionsInPlace : List (String × List (CheckedProperty Number)) → Option Bool → String → Prop
  | [], _, _ => True
  | (option, values) :: rest, multipleValues, path =>
    (∀ entry ∈ entryPaths runtime nodeValues multipleValues (parameterPath path option),
      multipleValues ≠ some false ∧ EntryInPlace values entry ∨ requiresOne values = false) ∧
    OptionsInPlace rest multipleValues path

end

/-! ## The issues of one property -/

omit [DecidableEq Number] [Zero Number]

theorem INodeIssues.occurrences_append (issues : INodeIssues) (name : String) (messages : List String)
    (issue : String × String) :
    (INodeIssues.occurrences (issues.append name messages) issue) =
      issues.occurrences issue + if issue.1 = name then messages.count issue.2 else 0 := by
  rw [occurrences, OrderedMap.listAt_append, List.count_append, occurrences]
  split <;> rfl

theorem INodeIssues.occurrences_merge (first second : INodeIssues) (issue : String × String) :
    INodeIssues.occurrences (first.merge second) issue = first.occurrences issue + second.occurrences issue := by
  rw [occurrences, OrderedMap.listAt_merge, List.count_append]
  rfl

variable {found issues : INodeIssues}

theorem INodeIssues.occurrences_foldlM {α : Type} {body : INodeIssues → α → Except Thrown INodeIssues}
    {finds : α → List (String × String)} {issue : String × String} {items : List α}
    (turn : ∀ item ∈ items, ∀ found issues : INodeIssues, body found item = .ok issues →
      issues.occurrences issue = found.occurrences issue + (finds item).count issue)
    (returns : items.foldlM body found = .ok issues) :
    issues.occurrences issue = found.occurrences issue + (items.flatMap finds).count issue := by
  induction items generalizing found with
  | nil =>
    cases returns
    rfl
  | cons item rest ih =>
    obtain ⟨next, first, later⟩ := Loop.foldlM_cons_inv returns
    have after := ih (fun other member => turn other (List.mem_cons_of_mem item member)) later
    rw [after, turn item List.mem_cons_self found next first, List.flatMap_cons, List.count_append, Nat.add_assoc]

theorem INodeIssues.occurrences_foldlM_of_silent {α : Type} {body : INodeIssues → α → Except Thrown INodeIssues}
    {issue : String × String} {items : List α}
    (silent : ∀ item ∈ items, ∀ found issues : INodeIssues, body found item = .ok issues →
      issues.occurrences issue = found.occurrences issue) (returns : items.foldlM body found = .ok issues) :
    issues.occurrences issue = found.occurrences issue := by
  have turn : ∀ item ∈ items, ∀ found issues : INodeIssues, body found item = .ok issues →
      issues.occurrences issue = found.occurrences issue + ([] : List (String × String)).count issue := silent
  rw [occurrences_foldlM turn returns, List.flatMap_eq_nil_iff.mpr fun _ _ => rfl]
  rfl

variable {head : CheckedHead Number}

theorem fieldsError_ne_requiredMessage {fields : Nat} {error : String}
    (found : fieldsError head fields = some error) (displayName : String) : error ≠ requiredMessage displayName := by
  -- its second letter is another one
  have differ : ∀ limited : String, "At most " ++ limited ≠ requiredMessage displayName ∧
      "At least " ++ limited ≠ requiredMessage displayName := by
    intro limited
    simp [requiredMessage, ← String.toList_inj]
  rw [fieldsError] at found
  split at found
  · cases found
    rw [String.append_assoc]
    exact (differ _).1
  · cases found
    rw [String.append_assoc]
    exact (differ _).2
  · cases found

theorem addFieldIssues_occurrences (head : CheckedHead Number) (path : String) (options : List String)
    (found : INodeIssues) (name displayName : String) :
    INodeIssues.occurrences (options.foldl (addFieldIssues runtime nodeValues head path) found)
        (name, requiredMessage displayName) =
      found.occurrences (name, requiredMessage displayName) := by
  induction options generalizing found with
  | nil => rfl
  | cons option rest ih =>
    rw [List.foldl_cons, ih, addFieldIssues]
    split
    · rename_i error limited
      have other := fieldsError_ne_requiredMessage limited displayName
      rw [INodeIssues.occurrences_append, List.count_singleton]
      simp [other]
    · rfl

variable [DecidableEq Number] [Zero Number] {type : Option SimpleType}

theorem isMissingValue_of_not_canMiss (cannot : canMiss type = false)
    (value : NodeParameterValueType Number) : isMissingValue type value = .ok false := by
  cases type with
  | none => rfl
  | some type => cases type <;> first | rfl | cases cannot

theorem missingIssues_of_not_canMiss (cannot : canMiss type = false)
    (head : CheckedHead Number) (values : List (NodeParameterValueType Number)) :
    missingIssues head type values = [] := by
  simp [missingIssues, isMissingValue_of_not_canMiss cannot]

theorem addToIssuesIfMissing_occurrences
    {value : NodeParameterValueType Number} (returns : addToIssuesIfMissing head type found value = .ok issues)
    (issue : String × String) :
    issues.occurrences issue = found.occurrences issue + (missingIssues head type [value]).count issue := by
  obtain ⟨missing, decided, added⟩ := Loop.bind_inv returns
  cases missing with
  | true =>
    cases added
    have one : missingIssues head type [value] = [(head.name, requiredMessage head.displayName)] := by
      simp [missingIssues, decided]
    obtain ⟨name, message⟩ := issue
    rw [INodeIssues.occurrences_append, one, List.count_singleton, List.count_singleton]
    by_cases same : name = head.name
    · simp [same]
    · simp [same, Ne.symm same]
  | false =>
    cases added
    simp [missingIssues, decided]

theorem missingIssues_eq_flatMap (head : CheckedHead Number) (type : Option SimpleType)
    (values : List (NodeParameterValueType Number)) :
    missingIssues head type values = values.flatMap fun value => missingIssues head type [value] := by
  induction values with
  | nil => rfl
  | cons value rest ih =>
    rw [List.flatMap_cons, ← ih, missingIssues, ← List.singleton_append, List.filter_append,
      List.map_append]
    rfl

theorem addToIssuesIfMissing_foldlM
    {values : List (NodeParameterValueType Number)}
    (returns : values.foldlM (addToIssuesIfMissing head type) found = .ok issues) (issue : String × String) :
    issues.occurrences issue = found.occurrences issue + (missingIssues head type values).count issue := by
  have turn : ∀ value ∈ values, ∀ found issues : INodeIssues, addToIssuesIfMissing head type found value = .ok issues →
      issues.occurrences issue = found.occurrences issue + (missingIssues head type [value]).count issue :=
    fun value _ found issues added => addToIssuesIfMissing_occurrences added issue
  rw [missingIssues_eq_flatMap]
  exact INodeIssues.occurrences_foldlM turn returns

variable {isDisplayed : Bool} {path : String}

theorem requiredIssues_occurrences {issues : INodeIssues}
    (returns : requiredIssues runtime nodeValues head type isDisplayed path = .ok issues) (issue : String × String) :
    issues.occurrences issue =
      (if head.required ∧ isDisplayed then
        let value := getParameterValueByPath runtime nodeValues head.name path
        missingIssues head type (if head.multipleValues.isSome then value.items else [value])
      else []).count issue := by
  have none_found : INodeIssues.occurrences ∅ issue = 0 := rfl
  rw [requiredIssues] at returns
  split at returns
  · rename_i asked
    rw [if_pos asked]
    dsimp only at returns ⊢
    split at returns
    · rename_i multiple
      rw [addToIssuesIfMissing_foldlM returns issue, none_found, Nat.zero_add, if_pos multiple]
    · rename_i single
      rw [addToIssuesIfMissing_occurrences returns issue, none_found, Nat.zero_add, if_neg single]
  · rename_i unasked
    cases returns
    rw [if_neg unasked]
    rfl

theorem requiredIssues_of_not_canMiss {issues : INodeIssues}
    (cannot : canMiss type = false)
    (returns : requiredIssues runtime nodeValues head type isDisplayed path = .ok issues) (issue : String × String) :
    issues.occurrences issue = 0 := by
  rw [requiredIssues_occurrences runtime nodeValues returns]
  simp [missingIssues_of_not_canMiss cannot]

/-! ## Properties that require nothing -/

mutual

theorem occurrences_of_not_requires : ∀ {property : CheckedProperty Number} {path : String} {issues : INodeIssues},
    requires property = false → getParameterIssues runtime nodeValues node property path = .ok issues →
    ∀ name displayName, issues.occurrences (name, requiredMessage displayName) = 0
  | .simple head type, path, issues, nothing, returns, name, displayName => by
    rw [getParameterIssues] at returns
    obtain ⟨isDisplayed, _, found⟩ := Loop.bind_inv returns
    rw [requires, Bool.and_eq_false_iff] at nothing
    cases nothing with
    | inl optional => 
      rw [requiredIssues_occurrences runtime nodeValues found]
      simp [optional]
    | inr cannot => exact requiredIssues_of_not_canMiss runtime nodeValues cannot found _
  | .collection head options, path, issues, nothing, returns, name, displayName => by
    rw [getParameterIssues] at returns
    obtain ⟨isDisplayed, _, more⟩ := Loop.bind_inv returns
    obtain ⟨foundIssues, own, below⟩ := Loop.bind_inv more
    rw [mergeChildIssues_of_not_requires nothing below,
      requiredIssues_of_not_canMiss runtime nodeValues rfl own]
  | .fixedCollection head options, path, issues, nothing, returns, name, displayName => by
    rw [getParameterIssues] at returns
    obtain ⟨isDisplayed, _, more⟩ := Loop.bind_inv returns
    obtain ⟨foundIssues, own, below⟩ := Loop.bind_inv more
    have nothingOwn := requiredIssues_of_not_canMiss runtime nodeValues rfl own (name, requiredMessage displayName)
    split at below
    · rw [mergeOptionIssues_of_not_requires nothing below, addFieldIssues_occurrences, nothingOwn]
    · cases below
      exact nothingOwn

theorem mergeChildIssues_of_not_requires : ∀ {children : List (CheckedProperty Number)} {basePath : String}
    {found issues : INodeIssues}, requiresOne children = false →
    mergeChildIssues runtime nodeValues node children basePath found = .ok issues →
    ∀ {name displayName : String}, issues.occurrences (name, requiredMessage displayName) =
      found.occurrences (name, requiredMessage displayName)
  | [], basePath, found, issues, _, returns, name, displayName => by
    cases returns
    rfl
  | child :: rest, basePath, found, issues, nothing, returns, name, displayName => by
    rw [mergeChildIssues] at returns
    obtain ⟨propertyIssues, first, later⟩ := Loop.bind_inv returns
    rw [requiresOne, Bool.or_eq_false_iff] at nothing
    rw [mergeChildIssues_of_not_requires nothing.2 later, INodeIssues.occurrences_merge,
      occurrences_of_not_requires nothing.1 first, Nat.add_zero]

theorem mergeOptionIssues_of_not_requires : ∀ {options : List (String × List (CheckedProperty Number))}
    {paths : String → List String} {found issues : INodeIssues}, requiresIn options = false →
    mergeOptionIssues runtime nodeValues node options paths found = .ok issues →
    ∀ {name displayName : String}, issues.occurrences (name, requiredMessage displayName) =
      found.occurrences (name, requiredMessage displayName)
  | [], paths, found, issues, _, returns, name, displayName => by
    cases returns
    rfl
  | (option, values) :: rest, paths, found, issues, nothing, returns, name, displayName => by
    rw [mergeOptionIssues] at returns
    obtain ⟨foundHere, here, later⟩ := Loop.bind_inv returns
    rw [requiresIn, Bool.or_eq_false_iff] at nothing
    rw [mergeOptionIssues_of_not_requires nothing.2 later,
      INodeIssues.occurrences_foldlM_of_silent (fun _ _ _ _ turn =>
        mergeChildIssues_of_not_requires nothing.1 turn) here]

end

theorem foldlM_mergeChildIssues_of_not_requires {children : List (CheckedProperty Number)} {paths : List String}
    (nothing : requiresOne children = false)
    (returns : paths.foldlM (fun foundIssues basePath =>
      mergeChildIssues runtime nodeValues node children basePath foundIssues) found = .ok issues)
    {name displayName : String} : issues.occurrences (name, requiredMessage displayName) =
      found.occurrences (name, requiredMessage displayName) :=
  INodeIssues.occurrences_foldlM_of_silent
    (fun _ _ _ _ turn => mergeChildIssues_of_not_requires runtime nodeValues node nothing turn) returns

mutual

theorem dueIssues_of_not_requires : ∀ {property : CheckedProperty Number} {path : String}, requires property = false →
    dueIssues runtime nodeValues node property path = []
  | .simple head type, path, nothing => by
    rw [requires, Bool.and_eq_false_iff] at nothing
    cases nothing with
    | inl optional => simp [dueIssues, optional]
    | inr cannot => simp [dueIssues, missingIssues_of_not_canMiss cannot]
  | .collection head options, path, nothing => by
    rw [dueIssues]
    split
    · exact List.flatMap_eq_nil_iff.mpr fun entry _ => dueInEntry_of_not_requires nothing
    · rfl
  | .fixedCollection head options, path, nothing => by
    rw [dueIssues]
    split
    · exact dueInOptions_of_not_requires nothing
    · rfl

theorem dueInEntry_of_not_requires : ∀ {children : List (CheckedProperty Number)} {entry : String},
    requiresOne children = false → dueInEntry runtime nodeValues node children entry = []
  | [], entry, _ => rfl
  | child :: rest, entry, nothing => by
    rw [requiresOne, Bool.or_eq_false_iff] at nothing
    rw [dueInEntry, dueIssues_of_not_requires nothing.1, dueInEntry_of_not_requires nothing.2]
    rfl

theorem dueInOptions_of_not_requires : ∀ {options : List (String × List (CheckedProperty Number))}
    {multipleValues : Option Bool} {path : String}, requiresIn options = false →
    dueInOptions runtime nodeValues node options multipleValues path = []
  | [], multipleValues, path, _ => rfl
  | (option, values) :: rest, multipleValues, path, nothing => by
    rw [requiresIn, Bool.or_eq_false_iff] at nothing
    have here : ((entryPaths runtime nodeValues multipleValues (parameterPath path option)).flatMap fun entry =>
        dueInEntry runtime nodeValues node values entry) = [] :=
      List.flatMap_eq_nil_iff.mpr fun entry _ => dueInEntry_of_not_requires nothing.1
    rw [dueInOptions, here, dueInOptions_of_not_requires nothing.2]
    rfl

end

/-! ## The paths of the first level -/

variable {head : CheckedHead Number}

omit [DecidableEq Number] [Zero Number] in
theorem optionBasePath_root (head : CheckedHead Number) : optionBasePath head "" = head.name ++ "." := by
  simp [optionBasePath]

omit [DecidableEq Number] [Zero Number] in
theorem optionValue_root (head : CheckedHead Number) (option : String) :
    optionValue runtime nodeValues head "" option = runtime.get nodeValues (parameterPath head.name option) := by
  rw [optionValue, optionBasePath_root, getParameterValueByPath, String.toList_append]
  simp

omit [Zero Number] in
theorem optionPaths_root (named : head.name ≠ "") (declared : head.multipleValues ≠ some false) (option : String) :
    optionPaths runtime nodeValues head "" option =
      entryPaths runtime nodeValues head.multipleValues (parameterPath head.name option) := by
  have path : optionBasePath head "" ++ option = parameterPath head.name option := by
    rw [optionBasePath_root, parameterPath, if_neg named]
  rw [optionPaths, entryPaths, optionValue_root, path]
  cases multiple : head.multipleValues with
  | none => rfl
  | some value =>
    cases value with
    | true => rfl
    | false => exact absurd multiple declared

omit [Zero Number] in
theorem optionPaths_root_of_entryPaths_nil {option : String} (declared : head.multipleValues = some false)
    (unset : entryPaths runtime nodeValues head.multipleValues (parameterPath head.name option) = []) :
    optionPaths runtime nodeValues head "" option = [] := by
  rw [entryPaths] at unset
  rw [optionPaths, optionValue_root]
  split at unset
  · rename_i undefined
    rw [if_pos undefined]
  · simp [declared] at unset

/-! ## What is reported is what is due -/

variable {runtime nodeValues node}

theorem isShown_eq (decided : displayParameterPath runtime nodeValues node head path = .ok isDisplayed) :
    isShown runtime nodeValues node head path = isDisplayed := by
  rw [isShown, decided]
  cases isDisplayed <;> rfl

theorem requiredIssues_eq_dueIssues {type : SimpleType} {issues : INodeIssues}
    (decided : displayParameterPath runtime nodeValues node head path = .ok isDisplayed)
    (inPlace : InPlace runtime nodeValues node (.simple head type) path)
    (returns : requiredIssues runtime nodeValues head (some type) isDisplayed path = .ok issues)
    (issue : String × String) :
    issues.occurrences issue = (dueIssues runtime nodeValues node (.simple head type) path).count issue := by
  rw [requiredIssues_occurrences runtime nodeValues returns, dueIssues, isShown_eq decided]
  by_cases asked : head.required ∧ isDisplayed
  · rw [if_pos asked, if_pos asked]
    cases misses : canMiss (some type) with
    | false => simp [missingIssues_of_not_canMiss misses]
    | true =>
      have declared : head.multipleValues ≠ some false :=
        inPlace asked.1 misses ((isShown_eq decided).trans asked.2)
      cases multiple : head.multipleValues with
      | none => rfl
      | some value =>
        cases value with
        | true => rfl
        | false => exact absurd multiple declared
  · rw [if_neg asked, if_neg asked]

theorem foldlM_optionPaths {option : String} {values : List (CheckedProperty Number)} {name displayName : String}
    (named : head.name ≠ "")
    (placed : ∀ entry ∈ entryPaths runtime nodeValues head.multipleValues (parameterPath head.name option),
      head.multipleValues ≠ some false ∨ requiresOne values = false)
    (turn : ∀ entry ∈ entryPaths runtime nodeValues head.multipleValues (parameterPath head.name option),
      ∀ found issues : INodeIssues, mergeChildIssues runtime nodeValues node values entry found = .ok issues →
      issues.occurrences (name, requiredMessage displayName) =
        found.occurrences (name, requiredMessage displayName) +
          (dueInEntry runtime nodeValues node values entry).count (name, requiredMessage displayName))
    (returns : (optionPaths runtime nodeValues head "" option).foldlM (fun foundIssues basePath =>
      mergeChildIssues runtime nodeValues node values basePath foundIssues) found = .ok issues) :
    issues.occurrences (name, requiredMessage displayName) =
      found.occurrences (name, requiredMessage displayName) +
        ((entryPaths runtime nodeValues head.multipleValues (parameterPath head.name option)).flatMap fun entry =>
          dueInEntry runtime nodeValues node values entry).count (name, requiredMessage displayName) := by
  by_cases declared : head.multipleValues = some false
  · cases entries : entryPaths runtime nodeValues head.multipleValues (parameterPath head.name option) with
    | nil =>
      rw [optionPaths_root_of_entryPaths_nil runtime nodeValues declared entries] at returns
      cases returns
      rfl
    | cons entry rest =>
      -- the option is set, and its properties are looked for elsewhere: they require nothing
      have nothing : requiresOne values = false := by
        cases placed entry (entries ▸ List.mem_cons_self) with
        | inl other => exact absurd declared other
        | inr nothing => exact nothing
      rw [foldlM_mergeChildIssues_of_not_requires runtime nodeValues node nothing returns,
        List.flatMap_eq_nil_iff.mpr fun entry _ => dueInEntry_of_not_requires runtime nodeValues node nothing]
      rfl
  · rw [optionPaths_root runtime nodeValues named declared] at returns
    exact INodeIssues.occurrences_foldlM turn returns

mutual

theorem getParameterIssues_eq_dueIssues : ∀ {property : CheckedProperty Number} {path : String} {issues : INodeIssues},
    InPlace runtime nodeValues node property path →
    getParameterIssues runtime nodeValues node property path = .ok issues →
    ∀ name displayName, issues.occurrences (name, requiredMessage displayName) =
      (dueIssues runtime nodeValues node property path).count (name, requiredMessage displayName)
  | .simple head type, path, issues, inPlace, returns, name, displayName => by
    rw [getParameterIssues] at returns
    obtain ⟨isDisplayed, decided, found⟩ := Loop.bind_inv returns
    exact requiredIssues_eq_dueIssues decided inPlace found _
  | .collection head options, path, issues, inPlace, returns, name, displayName => by
    have nothing : requires (.collection head options) = false := inPlace
    rw [occurrences_of_not_requires runtime nodeValues node nothing returns,
      dueIssues_of_not_requires runtime nodeValues node nothing]
    rfl
  | .fixedCollection head options, path, issues, inPlace, returns, name, displayName => by
    have whole := returns
    rw [getParameterIssues] at returns
    obtain ⟨isDisplayed, decided, more⟩ := Loop.bind_inv returns
    obtain ⟨foundIssues, own, below⟩ := Loop.bind_inv more
    have nothingOwn := requiredIssues_of_not_canMiss runtime nodeValues rfl own (name, requiredMessage displayName)
    cases isDisplayed with
    | false =>
      cases below
      rw [dueIssues, isShown_eq decided, nothingOwn]
      rfl
    | true =>
      have placed := inPlace (isShown_eq decided)
      split at placed
      · rename_i first
        obtain ⟨rfl, named⟩ := first
        have found := mergeOptionIssues_eq_dueInOptions named placed below name displayName
        rw [found, addFieldIssues_occurrences, nothingOwn, Nat.zero_add, dueIssues, isShown_eq decided]
        rfl
      · have nothing : requires (.fixedCollection head options) = false := placed
        rw [occurrences_of_not_requires runtime nodeValues node nothing whole,
          dueIssues_of_not_requires runtime nodeValues node nothing]
        rfl

theorem mergeChildIssues_eq_dueInEntry : ∀ {children : List (CheckedProperty Number)} {entry : String}
    {found issues : INodeIssues}, EntryInPlace runtime nodeValues node children entry →
    mergeChildIssues runtime nodeValues node children entry found = .ok issues →
    ∀ name displayName, issues.occurrences (name, requiredMessage displayName) =
      found.occurrences (name, requiredMessage displayName) +
        (dueInEntry runtime nodeValues node children entry).count (name, requiredMessage displayName)
  | [], entry, found, issues, _, returns, name, displayName => by
    cases returns
    rfl
  | child :: rest, entry, found, issues, inPlace, returns, name, displayName => by
    rw [mergeChildIssues] at returns
    obtain ⟨propertyIssues, first, later⟩ := Loop.bind_inv returns
    rw [mergeChildIssues_eq_dueInEntry inPlace.2 later, INodeIssues.occurrences_merge,
      getParameterIssues_eq_dueIssues inPlace.1 first, dueInEntry, List.count_append, Nat.add_assoc]

theorem mergeOptionIssues_eq_dueInOptions : ∀ {options : List (String × List (CheckedProperty Number))}
    {head : CheckedHead Number} {found issues : INodeIssues}, head.name ≠ "" →
    OptionsInPlace runtime nodeValues node options head.multipleValues head.name →
    mergeOptionIssues runtime nodeValues node options (optionPaths runtime nodeValues head "") found = .ok issues →
    ∀ name displayName, issues.occurrences (name, requiredMessage displayName) =
      found.occurrences (name, requiredMessage displayName) +
        (dueInOptions runtime nodeValues node options head.multipleValues head.name).count
          (name, requiredMessage displayName)
  | [], head, found, issues, _, _, returns, name, displayName => by
    cases returns
    rfl
  | (option, values) :: rest, head, found, issues, named, inPlace, returns, name, displayName => by
    rw [mergeOptionIssues] at returns
    obtain ⟨foundHere, here, later⟩ := Loop.bind_inv returns
    have turn : ∀ entry ∈ entryPaths runtime nodeValues head.multipleValues (parameterPath head.name option),
        ∀ found issues : INodeIssues, mergeChildIssues runtime nodeValues node values entry found = .ok issues →
        issues.occurrences (name, requiredMessage displayName) =
          found.occurrences (name, requiredMessage displayName) +
            (dueInEntry runtime nodeValues node values entry).count (name, requiredMessage displayName) := by
      intro entry member found issues checked
      cases inPlace.1 entry member with
      | inl placed => exact mergeChildIssues_eq_dueInEntry placed.2 checked name displayName
      | inr nothing =>
        rw [mergeChildIssues_of_not_requires runtime nodeValues node nothing checked,
          dueInEntry_of_not_requires runtime nodeValues node nothing]
        rfl
    have placed : ∀ entry ∈ entryPaths runtime nodeValues head.multipleValues (parameterPath head.name option),
        head.multipleValues ≠ some false ∨ requiresOne values = false :=
      fun entry member => (inPlace.1 entry member).imp_left And.left
    have foundOption := foldlM_optionPaths named placed turn here
    rw [mergeOptionIssues_eq_dueInOptions named inPlace.2 later, foundOption, dueInOptions, List.count_append,
      Nat.add_assoc]

end

end

namespace RequiredUrl

def url : CheckedProperty Nat :=
  .simple { name := "url", default := .string "", displayName := "URL", required := true } .string

def options : CheckedProperty Nat :=
  .collection { name := "options", default := .object [], displayName := "Options" } [url]

def optionValues : NodeParameterValueType Nat := .object [("options", .object [("url", .string "https://n8n.io")])]

end RequiredUrl

end N8n.NodeHelpers
