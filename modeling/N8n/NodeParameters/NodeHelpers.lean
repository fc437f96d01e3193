import N8n.Library.Loop
import N8n.NodeParameters.NodeProperties

/-! # The parameters of a node

`getNodeParameters` of `packages/workflow/src/NodeHelpers.ts`, with the order in
which it resolves the properties.  It either fills in the default values or
drops them, along with the values that are not displayed.
-/

namespace N8n.NodeHelpers

open NodeParameterValueType

variable {Number : Type} [DecidableEq Number] [Zero Number]

abbrev INodeParameters (Number : Type) := OrderedMap String (NodeParameterValueType Number)

abbrev IParameterDependencies := OrderedMap String (List String)

omit [DecidableEq Number] [Zero Number] in
def displayRuleNames (property : INodeProperties Number) : List String :=
  match property.displayOptions with
  | none => []
  | some options => (options.hide.getD [] ++ options.show.getD []).map Prod.fst

def addDependency (dependencies : List String) (parameterName : String) : List String :=
  if parameterName ∈ dependencies then dependencies
  else if parameterName.toList.head? = some '@' then dependencies
  else dependencies ++ [parameterName]

def getParameterDependencies (nodePropertiesArray : List (INodeProperties Number)) : IParameterDependencies :=
  nodePropertiesArray.foldl (fun dependencies property =>
    dependencies.set property.name
      ((displayRuleNames property).foldl addDependency ((dependencies.get? property.name).getD []))) ∅

structure ResolveState where
  executionOrder : List Nat
  indexToResolve : List Nat
  resolvedParameters : List String
  lastIndexLength : Nat
  lastIndexReduction : Int
  iterations : Nat

/-- Whether a dependency is still missing; those on the root level are assumed to be resolved. -/
def isMissing (resolvedParameters : List String) (dependency : String) : Bool :=
  dependency ∉ resolvedParameters ∧ dependency.toList.head? ≠ some '/'

def couldNotResolve : Thrown :=
  .applicationError "Could not resolve parameter dependencies. Max iterations reached! Hint: If `displayOptions` are specified in any child parameter of a parent `collection` or `fixedCollection`, remove the `displayOptions` from the child parameter."

/-- One turn of the loop, for the index that is first in line.  An index goes back in line once for every
dependency that is missing, and into the order all the same. -/
def resolveIndex (nodePropertiesArray : List (INodeProperties Number)) (parameterDependencies : IParameterDependencies)
    (index : Nat) (indexToResolve : List Nat) (state : ResolveState) : Except Thrown ResolveState :=
  match nodePropertiesArray[index]? with
  | none => .error (.typeError "Cannot read properties of undefined (reading 'name')")
  | some property =>
    match parameterDependencies.get? property.name with
    | none => .error (.typeError "Cannot read properties of undefined (reading 'length')")
    | some dependencies =>
      let resolved : ResolveState :=
        { state with
          executionOrder := state.executionOrder ++ [index]
          indexToResolve := indexToResolve
          resolvedParameters := state.resolvedParameters ++ [property.name]
          iterations := state.iterations + 1 }
      if dependencies = [] then .ok resolved
      else
        let missing := dependencies.filter (isMissing state.resolvedParameters)
        let indexToResolve := indexToResolve ++ missing.map fun _ => index
        let lastIndexReduction :=
          if indexToResolve.length < state.lastIndexLength then (state.iterations + 1 : Int)
          else state.lastIndexReduction
        if (state.iterations + 1 : Int) > lastIndexReduction + nodePropertiesArray.length then .error couldNotResolve
        else .ok { resolved with
          indexToResolve := indexToResolve
          lastIndexReduction := lastIndexReduction
          lastIndexLength := indexToResolve.length }

/-- The loop; `fuel` bounds its turns. -/
def resolveIndexes (nodePropertiesArray : List (INodeProperties Number))
    (parameterDependencies : IParameterDependencies) : Nat → ResolveState → Except Thrown (List Nat)
  | 0, _ => .error couldNotResolve
  | fuel + 1, state => match state.indexToResolve with
    | [] => .ok state.executionOrder
    | index :: indexToResolve => do
      resolveIndexes nodePropertiesArray parameterDependencies fuel
        (← resolveIndex nodePropertiesArray parameterDependencies index indexToResolve state)

/-- Every index is in line once at first, and may go back in line once for each dependency; between two turns
that leave fewer indexes in line there are no more than the number of properties. -/
def maxTurns (nodePropertiesArray : List (INodeProperties Number)) (parameterDependencies : IParameterDependencies) :
    Nat :=
  let dependencies := (nodePropertiesArray.map fun property =>
    ((parameterDependencies.get? property.name).getD []).length).sum
  nodePropertiesArray.length + (dependencies + 1) * (nodePropertiesArray.length + 2)

/-- Returns in which order the parameters should be resolved
to have the parameters available they depend on. -/
def getParameterResolveOrder (nodePropertiesArray : List (INodeProperties Number))
    (parameterDependencies : IParameterDependencies) : Except Thrown (List Nat) :=
  resolveIndexes nodePropertiesArray parameterDependencies (maxTurns nodePropertiesArray parameterDependencies)
    { executionOrder := []
      indexToResolve := List.range nodePropertiesArray.length
      resolvedParameters := []
      lastIndexLength := nodePropertiesArray.length
      lastIndexReduction := -1
      iterations := 0 }

omit [DecidableEq Number] [Zero Number] in
/-- The names of the properties, in the order in which they occur first, and the ones used multiple times. -/
def collectNames (nodePropertiesArray : List (INodeProperties Number)) : List String × List String :=
  nodePropertiesArray.foldl (fun (parameterNames, duplicateParameterNames) property =>
    if property.name ∈ parameterNames then
      (parameterNames,
        if property.name ∈ duplicateParameterNames then duplicateParameterNames
        else duplicateParameterNames ++ [property.name])
    else (parameterNames ++ [property.name], duplicateParameterNames)) ([], [])

def duplicateParameterNames (nodePropertiesArray : List (INodeProperties Number)) : List String :=
  (collectNames nodePropertiesArray).2

/-- The type of the property that a property list stands in. -/
inductive ParentType where
  | collection
  | fixedCollection
deriving DecidableEq, Repr

omit [DecidableEq Number] [Zero Number] in
/-- The type of a property in which other properties stand. -/
def INodeProperties.asParentType : INodeProperties Number → ParentType
  | .fixedCollection _ _ _ => .fixedCollection
  | _ => .collection

structure ParameterState (Number : Type) where
  nodeParameters : INodeParameters Number := ∅
  nodeParametersFull : INodeParameters Number := ∅

/-- What a turn of the main loop does about its property. -/
inductive Outcome (Number : Type) where
  | skip
  /-- The value gets set; it is left out of `nodeParametersFull` when it is not `full`. -/
  | set (value : NodeParameterValueType Number) (full : Bool)
  /-- `getNodeParameters` returns. -/
  | returned (value : NodeParameterValueType Number)

/-- The value of a simple property when the default values are filled in. -/
def valueOrDefault (type : SimpleType) (default value : NodeParameterValueType Number) :
    NodeParameterValueType Number :=
  if type = .boolean ∨ type = .number ∨ type = .options then
    if value ≠ undefined then value else default
  else if type = .resourceLocator ∧ default.isObjectType then
    if value ≠ undefined then value
    else .object ((default.entries.foldl (fun fields (key, value) => fields.set key value)
      ((∅ : INodeParameters Number).set "__rl" (.boolean true))).entries)
  else value.orElse default

/-- Whether the value of a simple property gets kept when the default values are dropped. -/
def differsFromDefault (parentType : Option ParentType) (default value : NodeParameterValueType Number) : Bool :=
  value ≠ default ∨ value ≠ undefined ∧ parentType = some .collection

def simpleOutcome (type : SimpleType) (default value : NodeParameterValueType Number) (returnDefaults : Bool)
    (parentType : Option ParentType) : Outcome Number :=
  if returnDefaults then .set (valueOrDefault type default value) true
  else if differsFromDefault parentType default value then .set value true
  else .skip

/-- What `getNodeParameters` returns for a list inside the property, given the list and the values of it. -/
abbrev Nested (property : INodeProperties Number) :=
  (list : List (INodeProperties Number)) → list ∈ property.nested → NodeParameterValueType Number →
    Except Thrown (NodeParameterValueType Number)

def collectionOutcome (head : PropertyHead Number) (multipleValues : Option Bool)
    (options : List (INodeProperties Number)) (value : NodeParameterValueType Number) (returnDefaults : Bool)
    (getNested : Nested (.collection head multipleValues options)) : Except Thrown (Outcome Number) :=
  if multipleValues = some true then
    if value ≠ undefined then .ok (.set value true)
    else if returnDefaults then
      match head.default with
      | array items => .ok (.set (.array items) true)
      | _ => .ok (.set (.array []) true)
    else .ok .skip
  else if value ≠ undefined then do
    let tempNodeParameters ← getNested options (List.mem_singleton_self options) value
    if tempNodeParameters ≠ null then .ok (.set tempNodeParameters true) else .ok .skip
  else if returnDefaults then .ok (.set head.default true)
  else .ok .skip

/-- `for (const item of value)` -/
def iterate : NodeParameterValueType Number → Except Thrown (List (NodeParameterValueType Number))
  | array items => .ok items
  | string text => .ok (text.toList.map fun character => .string character.toString)
  | _ => .error (.typeError "propertyValues[itemName] is not iterable")

/-- The option of a name, with its place among the lists inside the property. -/
def findOption (head : PropertyHead Number) (multipleValues : Option Bool)
    (options : List (String × List (INodeProperties Number))) (itemName : String) :
    Option { list : List (INodeProperties Number) // list ∈
      (INodeProperties.fixedCollection head multipleValues options).nested } :=
  match found : options.find? (fun option => option.1 = itemName) with
  | none => none
  | some option => some ⟨option.2, List.mem_map_of_mem (List.mem_of_find?_eq_some found)⟩

def arrayValue (head : PropertyHead Number) (multipleValues : Option Bool)
    (options : List (String × List (INodeProperties Number)))
    (getNested : Nested (.fixedCollection head multipleValues options)) (itemName : String)
    (nodeValue : NodeParameterValueType Number) : Except Thrown (NodeParameterValueType Number) :=
  match findOption head multipleValues options itemName with
  | none => .error (.applicationError "Could not find property option")
  | some option => getNested option.1 option.2 nodeValue

/-- The values of one option of a fixed collection, unless nothing gets set for it.  `ownValue` is the value of the
property, which need not be the one that gets iterated. -/
def optionValues (head : PropertyHead Number) (multipleValues : Option Bool)
    (options : List (String × List (INodeProperties Number))) (ownValue propertyValues : NodeParameterValueType Number)
    (getNested : Nested (.fixedCollection head multipleValues options)) (itemName : String) :
    Except Thrown (Option (NodeParameterValueType Number)) :=
  if multipleValues = some true then do
    let items ← iterate (propertyValues.get itemName)
    let tempArrayValue ← items.mapM (arrayValue head multipleValues options getNested itemName)
    .ok (some (.array (tempArrayValue.filter (· ≠ null))))
  else match findOption head multipleValues options itemName with
    | none => .ok none
    | some option =>
      if ownValue = undefined ∨ ownValue = null then
        .error (.typeError "Cannot read properties of undefined")
      else do
        let tempValue ← getNested option.1 option.2 (ownValue.get itemName)
        .ok (if tempValue.entries = [] then none else some (.object tempValue.entries))

def fixedCollectionOutcome (head : PropertyHead Number) (multipleValues : Option Bool)
    (options : List (String × List (INodeProperties Number))) (nodeValues value : NodeParameterValueType Number)
    (returnDefaults : Bool) (getNested : Nested (.fixedCollection head multipleValues options)) :
    Except Thrown (Outcome Number) :=
  let propertyValues := if returnDefaults ∧ value = undefined then head.default else value
  -- For fixedCollections, which only allow one value, an empty object indicates that a value got added.
  if ¬ returnDefaults ∧ multipleValues = some false ∧ propertyValues.isTruthy ∧ propertyValues.keys = [] then
    .ok (.returned nodeValues)
  else do
    let collectionValues ← propertyValues.keys.foldlM
      (OrderedMap.setFrom (optionValues head multipleValues options value propertyValues getNested))
      (∅ : INodeParameters Number)
    if collectionValues.entries ≠ [] ∨ returnDefaults then
      .ok (.set (.object collectionValues.entries) true)
    else if multipleValues = some false ∧ propertyValues.isPlainObject ∧ propertyValues.keys ≠ [] then
      -- A value got added which contains all default values.
      .ok (.set (.object (propertyValues.keys.foldl (fun (returnValue : INodeParameters Number) itemName =>
        returnValue.set itemName (.object [])) ∅).entries) false)
    else .ok .skip

/-- What the main loop does about a property that it does not skip; `displayed` is asked for again when the name gets
used multiple times. -/
def propertyOutcome (duplicateParameterNames : List String) (nodeValues : NodeParameterValueType Number)
    (returnDefaults onlySimpleTypes : Bool) (parentType : Option ParentType) (displayed : Except Thrown Bool) :
    (property : INodeProperties Number) → Nested property → Except Thrown (Outcome Number)
  | .simple head type, _ => do
    if ← (if head.name ∈ duplicateParameterNames then displayed else .ok true) then
      .ok (simpleOutcome type head.default (nodeValues.get head.name) returnDefaults parentType)
    else .ok .skip
  | .collection head multipleValues options, getNested =>
    if onlySimpleTypes then .ok .skip
    else collectionOutcome head multipleValues options (nodeValues.get head.name) returnDefaults getNested
  | .fixedCollection head multipleValues options, getNested =>
    if onlySimpleTypes then .ok .skip
    else fixedCollectionOutcome head multipleValues options nodeValues
      (nodeValues.get head.name) returnDefaults getNested

variable (runtime : DisplayRuntime Number)

/-- What the main loop does about a property, given the values that decide what is displayed. -/
def parameterOutcome (duplicateParameterNames : List String) (nodeValues : NodeParameterValueType Number)
    (returnDefaults returnNoneDisplayed : Bool) (node : Option Number) (onlySimpleTypes : Bool)
    (nodeValuesDisplayCheck nodeValuesRoot : NodeParameterValueType Number) (parentType : Option ParentType)
    (property : INodeProperties Number) (getNested : Nested property) : Except Thrown (Outcome Number) :=
  if ¬ nodeValues.isTruthy ∨
      nodeValues.get property.name = undefined ∧ (¬ returnDefaults ∨ parentType = some .collection) then
    .ok .skip
  else do
    let displayed := displayParameter runtime nodeValuesDisplayCheck property node (some nodeValuesRoot)
    if ← (if returnNoneDisplayed then .ok true else displayed) then
      propertyOutcome duplicateParameterNames nodeValues returnDefaults onlySimpleTypes parentType displayed property
        getNested
    else .ok .skip

/-- Go through the parameters in order of their dependencies; the outcome of each may depend on the parameters
that are set already. -/
def resolveParameters (outcome : Nat → INodeParameters Number → Except Thrown (String × Outcome Number)) :
    List Nat → ParameterState Number → Except Thrown (NodeParameterValueType Number)
  | [], state => .ok (.object state.nodeParameters.entries)
  | parameterIndex :: rest, state => do
    match ← outcome parameterIndex state.nodeParametersFull with
    | (_, .skip) => resolveParameters outcome rest state
    | (name, .set value full) =>
      resolveParameters outcome rest
        { nodeParameters := state.nodeParameters.set name value
          nodeParametersFull :=
            if full then state.nodeParametersFull.set name value else state.nodeParametersFull }
    | (_, .returned value) => .ok value

/-- Returns the node parameter values. Depending on the settings it either just returns the none
default values or it applies all the default values. -/
def getNodeParameters (nodePropertiesArray : List (INodeProperties Number))
    (nodeValues : NodeParameterValueType Number) (returnDefaults returnNoneDisplayed : Bool) (node : Option Number)
    (onlySimpleTypes dataIsResolved : Bool) (nodeValuesRoot : Option (NodeParameterValueType Number))
    (parentType : Option ParentType) (parameterDependencies : Option IParameterDependencies) :
    Except Thrown (NodeParameterValueType Number) := do
  let dependencies := parameterDependencies.getD (getParameterDependencies nodePropertiesArray)
  -- The values that decide what is displayed, unless those are the parameters found so far.
  let nodeValuesDisplayCheck ←
    if ¬ dataIsResolved ∧ ¬ returnNoneDisplayed then do
      let resolved ← getNodeParameters nodePropertiesArray nodeValues true true node true true nodeValuesRoot
        parentType (some dependencies)
      .ok (some resolved)
    else .ok none
  let parameterIterationOrderIndex ← getParameterResolveOrder nodePropertiesArray dependencies
  resolveParameters (fun parameterIndex nodeParametersFull =>
    match _found : nodePropertiesArray[parameterIndex]? with
    | none => .error (.typeError "Cannot read properties of undefined (reading 'name')")
    | some property => do
      let check := nodeValuesDisplayCheck.getD (.object nodeParametersFull.entries)
      let root := nodeValuesRoot.getD check
      let outcome ← parameterOutcome runtime (duplicateParameterNames nodePropertiesArray) nodeValues returnDefaults
        returnNoneDisplayed node onlySimpleTypes check root parentType property fun list _inside value =>
          getNodeParameters list value returnDefaults returnNoneDisplayed node false false (some root)
            (some property.asParentType) none
      .ok (property.name, outcome))
    parameterIterationOrderIndex {}
termination_by 2 * sizeOf nodePropertiesArray + if dataIsResolved ∨ returnNoneDisplayed then 0 else 1
decreasing_by
  · have smaller : sizeOf list < sizeOf nodePropertiesArray :=
      Nat.lt_trans (INodeProperties.sizeOf_nested_lt _inside) (List.sizeOf_lt_of_mem (List.mem_of_getElem? _found))
    split <;> split <;> omega
  · rename_i unresolved
    simp [unresolved]

end N8n.NodeHelpers
