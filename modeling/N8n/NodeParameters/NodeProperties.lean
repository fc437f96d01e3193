import Mathlib.Data.List.Dedup
import Mathlib.Data.List.Infix
import N8n.Workflow.Interfaces

/-! # Node properties and when they are displayed

The property declarations of `Interfaces.ts` and
`displayParameter` of `NodeHelpers.ts`.  Numbers are those
of JSON, so that `===` is equality of primitive values; two objects are equal
when lodash's `isEqual` says so, and the order of their keys is left out.
-/

namespace N8n.NodeHelpers

/-- A parameter value; `undefined` is the value of a key that is missing. -/
inductive NodeParameterValueType (Number : Type) where
  | undefined
  | null
  | boolean (value : Bool)
  | number (value : Number)
  | string (value : String)
  | array (items : List (NodeParameterValueType Number))
  | object (fields : List (String × NodeParameterValueType Number))

namespace NodeParameterValueType

variable {Number : Type} [DecidableEq Number]

mutual

def decEq : (first second : NodeParameterValueType Number) → Decidable (first = second)
  | undefined, undefined | null, null => isTrue rfl
  | boolean first, boolean second =>
    if same : first = second then isTrue (congrArg boolean same) else isFalse fun equal => same (by cases equal; rfl)
  | number first, number second =>
    if same : first = second then isTrue (congrArg number same) else isFalse fun equal => same (by cases equal; rfl)
  | string first, string second =>
    if same : first = second then isTrue (congrArg string same) else isFalse fun equal => same (by cases equal; rfl)
  | array first, array second => match decEqItems first second with
    | isTrue same => isTrue (congrArg array same)
    | isFalse differ => isFalse fun equal => differ (by cases equal; rfl)
  | object first, object second => match decEqFields first second with
    | isTrue same => isTrue (congrArg object same)
    | isFalse differ => isFalse fun equal => differ (by cases equal; rfl)
  | undefined, null | undefined, boolean _ | undefined, number _ | undefined, string _ | undefined, array _
  | undefined, object _ | null, undefined | null, boolean _ | null, number _ | null, string _ | null, array _
  | null, object _ | boolean _, undefined | boolean _, null | boolean _, number _ | boolean _, string _
  | boolean _, array _ | boolean _, object _ | number _, undefined | number _, null | number _, boolean _
  | number _, string _ | number _, array _ | number _, object _ | string _, undefined | string _, null
  | string _, boolean _ | string _, number _ | string _, array _ | string _, object _ | array _, undefined
  | array _, null | array _, boolean _ | array _, number _ | array _, string _ | array _, object _
  | object _, undefined | object _, null | object _, boolean _ | object _, number _ | object _, string _
  | object _, array _ => isFalse fun equal => by cases equal

def decEqItems : (first second : List (NodeParameterValueType Number)) → Decidable (first = second)
  | [], [] => isTrue rfl
  | [], _ :: _ | _ :: _, [] => isFalse fun equal => by cases equal
  | first :: firsts, second :: seconds => match decEq first second, decEqItems firsts seconds with
    | isTrue head, isTrue tail => isTrue (congrArg₂ List.cons head tail)
    | isFalse differ, _ => isFalse fun equal => differ (List.cons.inj equal).1
    | _, isFalse differ => isFalse fun equal => differ (List.cons.inj equal).2

def decEqFields : (first second : List (String × NodeParameterValueType Number)) → Decidable (first = second)
  | [], [] => isTrue rfl
  | [], _ :: _ | _ :: _, [] => isFalse fun equal => by cases equal
  | (name, first) :: firsts, (name', second) :: seconds =>
    match decEq first second, decEqFields firsts seconds with
    | isTrue head, isTrue tail =>
      if same : name = name' then isTrue (congrArg₂ List.cons (congrArg₂ Prod.mk same head) tail)
      else isFalse fun equal => same (Prod.mk.inj (List.cons.inj equal).1).1
    | isFalse differ, _ => isFalse fun equal => differ (Prod.mk.inj (List.cons.inj equal).1).2
    | _, isFalse differ => isFalse fun equal => differ (List.cons.inj equal).2

end

instance : DecidableEq (NodeParameterValueType Number) := decEq

omit [DecidableEq Number] in
/-- Whether `typeof value` is `object`. -/
def isObjectType : NodeParameterValueType Number → Bool
  | null | array _ | object _ => true
  | _ => false

omit [DecidableEq Number] in
/-- `value?.constructor.name === 'Object'` -/
def isPlainObject : NodeParameterValueType Number → Bool
  | object _ => true
  | _ => false

def isTruthy [Zero Number] : NodeParameterValueType Number → Bool
  | undefined | null => false
  | boolean value => value
  | number value => value ≠ 0
  | string value => value ≠ ""
  | array _ | object _ => true

/-- `Object.entries(value || {})` -/
def entries : NodeParameterValueType Number → List (String × NodeParameterValueType Number)
  | object fields => fields
  | array items => items.zipIdx.map fun (item, index) => (toString index, item)
  | string text => text.toList.zipIdx.map fun (character, index) => (toString index, string character.toString)
  | _ => []

/-- `Object.keys(value || {})` -/
def keys (value : NodeParameterValueType Number) : List String := (value.entries.map Prod.fst).dedup

/-- `value[name]`, for a value that has properties -/
def get (value : NodeParameterValueType Number) (name : String) : NodeParameterValueType Number :=
  (value.entries.lookup name).getD undefined

/-- `value ?? fallback` -/
def orElse (value fallback : NodeParameterValueType Number) : NodeParameterValueType Number :=
  match value with
  | undefined | null => fallback
  | other => other

end NodeParameterValueType

/-- `{ _cnd: { key: target } }` -/
inductive DisplayCondition (Number : Type) where
  | eq (targetValue : NodeParameterValueType Number)
  | not (targetValue : NodeParameterValueType Number)
  | gte (targetValue : NodeParameterValueType Number)
  | lte (targetValue : NodeParameterValueType Number)
  | gt (targetValue : NodeParameterValueType Number)
  | lt (targetValue : NodeParameterValueType Number)
  | between (lower upper : NodeParameterValueType Number)
  | includes (targetValue : String)
  | startsWith (targetValue : String)
  | endsWith (targetValue : String)
  | regex (targetValue : String)
  | isPresent

inductive DisplayRule (Number : Type) where
  | value (value : NodeParameterValueType Number)
  | condition (condition : DisplayCondition Number)

structure IDisplayOptions (Number : Type) where
  hide : Option (List (String × List (DisplayRule Number))) := none
  «show» : Option (List (String × List (DisplayRule Number))) := none

/-- The types whose values `getNodeParameters` takes as they are. -/
inductive SimpleType where
  | assignmentCollection
  | boolean
  | button
  | color
  | credentials
  | credentialsSelect
  | curlImport
  | dateTime
  | filter
  | hidden
  | json
  | multiOptions
  | notice
  | number
  | options
  | resourceLocator
  | resourceMapper
  | string
  | workflowSelector
deriving DecidableEq, Repr

structure PropertyHead (Number : Type) where
  name : String
  default : NodeParameterValueType Number
  displayOptions : Option (IDisplayOptions Number) := none

/-- A property; `multipleValues` is `typeOptions?.multipleValues`. -/
inductive INodeProperties (Number : Type) where
  | simple (head : PropertyHead Number) (type : SimpleType)
  | collection (head : PropertyHead Number) (multipleValues : Option Bool) (options : List (INodeProperties Number))
  /-- Its options have a name and the properties of their values. -/
  | fixedCollection (head : PropertyHead Number) (multipleValues : Option Bool)
      (options : List (String × List (INodeProperties Number)))

namespace INodeProperties

variable {Number : Type}

def head : INodeProperties Number → PropertyHead Number
  | simple head _ | collection head _ _ | fixedCollection head _ _ => head

def name (property : INodeProperties Number) : String := property.head.name

def default (property : INodeProperties Number) : NodeParameterValueType Number := property.head.default

def displayOptions (property : INodeProperties Number) : Option (IDisplayOptions Number) :=
  property.head.displayOptions

/-- The property lists inside a property. -/
def nested : INodeProperties Number → List (List (INodeProperties Number))
  | simple _ _ => []
  | collection _ _ options => [options]
  | fixedCollection _ _ options => options.map Prod.snd

theorem sizeOf_nested_lt {property : INodeProperties Number} {list : List (INodeProperties Number)}
    (member : list ∈ property.nested) : sizeOf list < sizeOf property := by
  cases property with
  | simple head type => cases member
  | collection head multipleValues options =>
    obtain rfl := List.mem_singleton.mp member
    simp only [collection.sizeOf_spec]
    omega
  | fixedCollection head multipleValues options =>
    obtain ⟨option, inside, rfl⟩ := List.mem_map.mp member
    have below := List.sizeOf_lt_of_mem inside
    obtain ⟨name, list⟩ := option
    simp only [fixedCollection.sizeOf_spec, Prod.mk.sizeOf_spec] at below ⊢
    omega

end INodeProperties

/-- What the language and lodash compute on parameter values. -/
structure DisplayRuntime (Number : Type) where
  /-- lodash's `get(object, path)` -/
  get : NodeParameterValueType Number → String → NodeParameterValueType Number
  /-- `first < second` -/
  less : NodeParameterValueType Number → NodeParameterValueType Number → Bool
  /-- `first <= second` -/
  lessOrEqual : NodeParameterValueType Number → NodeParameterValueType Number → Bool
  /-- `new RegExp(source).test(value)` -/
  regexTest : String → NodeParameterValueType Number → Except Thrown Bool

section

open NodeParameterValueType

variable {Number : Type} [DecidableEq Number] [Zero Number] (runtime : DisplayRuntime Number)

/-- The value of a property that a rule names, as a list; `node` is the node's version. -/
def getPropertyValues (nodeValues : NodeParameterValueType Number) (propertyName : String) (node : Option Number)
    (nodeValuesRoot : NodeParameterValueType Number) : List (NodeParameterValueType Number) :=
  let value :=
    if propertyName.toList.head? = some '/' then
      runtime.get nodeValuesRoot (String.ofList (propertyName.toList.drop 1))
    else if propertyName = "@version" then .number (node.getD 0)
    else runtime.get nodeValues propertyName
  let value := match value with
    | object fields => if (value.get "__rl").isTruthy then value.get "value" else object fields
    | other => other
  match value with
  | array items => items
  | other => [other]

def onText (method : String) (value : NodeParameterValueType Number) (test : List Char → Bool) :
    Except Thrown Bool :=
  match value with
  | string text => .ok (test text.toList)
  | undefined => .error (.typeError ("Cannot read properties of undefined (reading '" ++ method ++ "')"))
  | null => .error (.typeError ("Cannot read properties of null (reading '" ++ method ++ "')"))
  | _ => .error (.typeError ("propertyValue." ++ method ++ " is not a function"))

def DisplayCondition.holds (condition : DisplayCondition Number) (propertyValue : NodeParameterValueType Number) :
    Except Thrown Bool :=
  match condition with
  | eq targetValue => .ok (propertyValue = targetValue)
  | not targetValue => .ok (propertyValue ≠ targetValue)
  | gte targetValue => .ok (runtime.lessOrEqual targetValue propertyValue)
  | lte targetValue => .ok (runtime.lessOrEqual propertyValue targetValue)
  | gt targetValue => .ok (runtime.less targetValue propertyValue)
  | lt targetValue => .ok (runtime.less propertyValue targetValue)
  | between lower upper => .ok (runtime.lessOrEqual lower propertyValue && runtime.lessOrEqual propertyValue upper)
  | includes targetValue => match propertyValue with
    | array items => .ok (items.contains (string targetValue))
    | other => onText "includes" other fun text => targetValue.toList <:+: text
  | startsWith targetValue => onText "startsWith" propertyValue fun text => targetValue.toList.isPrefixOf text
  | endsWith targetValue => onText "endsWith" propertyValue fun text => targetValue.toList.isSuffixOf text
  | regex targetValue => runtime.regexTest targetValue propertyValue
  | isPresent => .ok (propertyValue ≠ null ∧ propertyValue ≠ undefined ∧ propertyValue ≠ string "")

/-- Some rule fits; a rule that is a value has to be among the actual ones, and no two objects are the same. -/
def checkConditions (conditions : List (DisplayRule Number)) (actualValues : List (NodeParameterValueType Number)) :
    Except Thrown Bool :=
  conditions.anyM fun
    | .condition condition => actualValues.allM (condition.holds runtime)
    | .value value => .ok (actualValues.any fun actual => actual = value ∧ (value = null ∨ ¬ value.isObjectType))

def isExpression : NodeParameterValueType Number → Bool
  | string text => text.toList.head? = some '='
  | _ => false

/-- All the defined rules have to match; an expression among the values displays the parameter at once. -/
def checkShow (nodeValues : NodeParameterValueType Number) (node : Option Number)
    (nodeValuesRoot : NodeParameterValueType Number) :
    List (String × List (DisplayRule Number)) → Except Thrown (Option Bool)
  | [] => .ok none
  | (propertyName, conditions) :: rest =>
    let values := getPropertyValues runtime nodeValues propertyName node nodeValuesRoot
    if values.any isExpression then .ok (some true)
    else if values = [] then .ok (some false)
    else do
      if ← checkConditions runtime conditions values then checkShow nodeValues node nodeValuesRoot rest
      else .ok (some false)

/-- Any of the defined rules hides the parameter. -/
def checkHide (nodeValues : NodeParameterValueType Number) (node : Option Number)
    (nodeValuesRoot : NodeParameterValueType Number) : List (String × List (DisplayRule Number)) → Except Thrown Bool
  | [] => .ok true
  | (propertyName, conditions) :: rest =>
    let values := getPropertyValues runtime nodeValues propertyName node nodeValuesRoot
    if values = [] then checkHide nodeValues node nodeValuesRoot rest
    else do
      if ← checkConditions runtime conditions values then .ok false
      else checkHide nodeValues node nodeValuesRoot rest

def displayParameter (nodeValues : NodeParameterValueType Number) (parameter : INodeProperties Number)
    (node : Option Number) (nodeValuesRoot : Option (NodeParameterValueType Number)) : Except Thrown Bool :=
  match parameter.displayOptions with
  | none => .ok true
  | some options => do
    let root := nodeValuesRoot.getD nodeValues
    match ← checkShow runtime nodeValues node root (options.show.getD []) with
    | some displayed => .ok displayed
    | none => checkHide runtime nodeValues node root (options.hide.getD [])

end

end N8n.NodeHelpers
