import Mathlib

/-! # Validating the type of a value

`packages/workflow/src/TypeValidation.ts`, for the types a filter operator can
have.  What the language and the date library compute on values (conversions,
comparisons, JSON, dates) is a `Runtime`.
-/

namespace N8n.NodeParameters

/-- A value; its numbers and dates are those of the runtime. -/
inductive JsValue (Number Date DateTime : Type) where
  | undefined
  | null
  | boolean (value : Bool)
  | number (value : Number)
  | string (value : String)
  | array (items : List (JsValue Number Date DateTime))
  | object (fields : List (String × JsValue Number Date DateTime))
  | date (value : Date)
  | dateTime (value : DateTime)

namespace JsValue

variable {Number Date DateTime : Type}

def typeof : JsValue Number Date DateTime → String
  | undefined => "undefined"
  | boolean _ => "boolean"
  | number _ => "number"
  | string _ => "string"
  | null | array _ | object _ | date _ | dateTime _ => "object"

def isArray : JsValue Number Date DateTime → Bool
  | array _ => true
  | _ => false

/-- lodash's `isObject`, for values that are not functions. -/
def isObject : JsValue Number Date DateTime → Bool
  | array _ | object _ | date _ | dateTime _ => true
  | _ => false

/-- `value ?? fallback` -/
def orElse (value fallback : JsValue Number Date DateTime) : JsValue Number Date DateTime :=
  match value with
  | undefined | null => fallback
  | other => other

end JsValue

/-- The language's and the date library's operations on values. -/
structure Runtime (Number Date DateTime : Type) where
  isNaN : Number → Bool
  ofNat : Nat → Number
  /-- `Number(value)` -/
  toNumber : JsValue Number Date DateTime → Number
  /-- `String(value)` -/
  toText : JsValue Number Date DateTime → String
  /-- `Boolean(value)` -/
  isTruthy : JsValue Number Date DateTime → Bool
  /-- `first === second` -/
  strictEquals : JsValue Number Date DateTime → JsValue Number Date DateTime → Bool
  /-- `first < second` -/
  less : JsValue Number Date DateTime → JsValue Number Date DateTime → Bool
  /-- `first <= second` -/
  lessOrEqual : JsValue Number Date DateTime → JsValue Number Date DateTime → Bool
  /-- `JSON.stringify` -/
  stringify : JsValue Number Date DateTime → String
  /-- `JSON.parse`, unless it throws -/
  jsonParse : String → Option (JsValue Number Date DateTime)
  /-- The fallback of `jsonParse` for JavaScript objects, unless it throws -/
  parseJSObject : String → Option (JsValue Number Date DateTime)
  /-- A global replacement of single by double quotes -/
  doubleQuotes : String → String
  trim : String → String
  toLowerCase : String → String
  toLocaleLowerCase : String → String
  fromJSDate : Date → DateTime
  fromISO : String → DateTime
  fromHTTP : String → DateTime
  fromRFC2822 : String → DateTime
  fromSQL : String → DateTime
  /-- `DateTime.fromMillis(Date.parse(text))` -/
  fromParsedMillis : String → DateTime
  isValid : DateTime → Bool
  /-- `value.toMillis()`, unless there is no such method -/
  toMillis : JsValue Number Date DateTime → Option Number
  /-- `new RegExp(source, flags).test(text)`, unless the expression is not valid -/
  regexTest : String → String → String → Option Bool

inductive FilterOperatorType where
  | string
  | number
  | boolean
  | array
  | object
  | dateTime
  | any
deriving DecidableEq, Repr

def FilterOperatorType.value : FilterOperatorType → String
  | .string => "string"
  | .number => "number"
  | .boolean => "boolean"
  | .array => "array"
  | .object => "object"
  | .dateTime => "dateTime"
  | .any => "any"

inductive ValidationResult (Value : Type) where
  | valid (newValue : Value)
  | invalid (errorMessage : String)

def ValidationResult.isValid {Value : Type} : ValidationResult Value → Bool
  | .valid _ => true
  | .invalid _ => false

/-- What a `try` around a parser returns. -/
def ValidationResult.ofParsed {Value : Type} (parsed : Option Value) (errorMessage : String) :
    ValidationResult Value :=
  match parsed with
  | some newValue => .valid newValue
  | none => .invalid errorMessage

@[simp] theorem ValidationResult.isValid_ofParsed {Value : Type} (parsed : Option Value)
    (errorMessage : String) : (ofParsed parsed errorMessage).isValid = parsed.isSome := by
  cases parsed <;> rfl

@[simp] theorem ValidationResult.isValid_valid {Value : Type} (newValue : Value) :
    (ValidationResult.valid newValue).isValid = true := rfl

@[simp] theorem ValidationResult.isValid_invalid {Value : Type} (errorMessage : String) :
    (ValidationResult.invalid errorMessage : ValidationResult Value).isValid = false := rfl

section

variable {Number Date DateTime : Type} (runtime : Runtime Number Date DateTime)

def tryToParseNumber (value : JsValue Number Date DateTime) : Option (JsValue Number Date DateTime) :=
  if runtime.isNaN (runtime.toNumber value) then none else some (.number (runtime.toNumber value))

def tryToParseString (value : JsValue Number Date DateTime) : JsValue Number Date DateTime :=
  if value.typeof = "object" then .string (runtime.stringify value)
  else
    match value with
    | .undefined => .string ""
    | .string text => .string text
    | other => .string (runtime.toText other)

def tryToParseBoolean (value : JsValue Number Date DateTime) : Option (JsValue Number Date DateTime) :=
  let fromNumber : Option (JsValue Number Date DateTime) :=
    let num : JsValue Number Date DateTime := .number (runtime.toNumber value)
    if runtime.strictEquals num (.number (runtime.ofNat 0)) then some (.boolean false)
    else if runtime.strictEquals num (.number (runtime.ofNat 1)) then some (.boolean true)
    else none
  match value with
  | .boolean truth => some (.boolean truth)
  | .string text =>
    if runtime.toLowerCase text ∈ ["true", "false"] then some (.boolean (runtime.toLowerCase text = "true"))
    else if runtime.trim text = "" then none
    else fromNumber
  | _ => fromNumber

/-- Tries the formats one after the other. -/
def tryToParseDateTime (value : JsValue Number Date DateTime) : Option (JsValue Number Date DateTime) :=
  let dateString := runtime.trim (runtime.toText value)
  let fromText := ([runtime.fromISO, runtime.fromHTTP, runtime.fromRFC2822, runtime.fromSQL,
    runtime.fromParsedMillis].map fun parse => parse dateString).find? runtime.isValid
  match value with
  | .dateTime time =>
    if runtime.isValid time then some (.dateTime time) else fromText.map .dateTime
  | .date date =>
    if runtime.isValid (runtime.fromJSDate date) then some (.dateTime (runtime.fromJSDate date))
    else fromText.map .dateTime
  | _ => fromText.map .dateTime

def tryToParseArray (value : JsValue Number Date DateTime) : Option (JsValue Number Date DateTime) :=
  if value.isArray then some value
  else
    let text := runtime.toText value
    match runtime.jsonParse text <|> runtime.jsonParse (runtime.doubleQuotes text) with
    | none => none
    | some parsed => if parsed.isArray then some parsed else none

def tryToParseObject (value : JsValue Number Date DateTime) : Option (JsValue Number Date DateTime) :=
  if value.isObject ∧ ¬ value.isArray then some value
  else
    match runtime.jsonParse (runtime.toText value) <|> runtime.parseJSObject (runtime.toText value) with
    | none => none
    | some parsed => if parsed.typeof ≠ "object" ∨ parsed.isArray then none else some parsed

def getValueDescription (value : JsValue Number Date DateTime) : String :=
  match value with
  | .null => "'null'"
  | .array _ => "array"
  | .object _ | .date _ | .dateTime _ => "object"
  | other => "'" ++ runtime.toText other ++ "'"

def dateTimeHint : String :=
  " <br/><br/> Consider using <a href=\"https://moment.github.io/luxon/api-docs/index.html#datetimefromformat\" target=\"_blank\"><code>DateTime.fromFormat</code></a> to work with custom date formats."

/-- With the options `strict` and `parseStrings`. -/
def validateFieldType (fieldName : String) (value : JsValue Number Date DateTime) (type : FilterOperatorType)
    (strict parseStrings : Bool) : ValidationResult (JsValue Number Date DateTime) :=
  let defaultErrorMessage := "'" ++ fieldName ++ "' expects a " ++ type.value ++ " but we got " ++
    getValueDescription runtime value
  match value with
  | .undefined | .null => .valid .undefined
  | _ =>
    match type with
    | .string =>
      if ¬ parseStrings then .valid value
      else if strict ∧ value.typeof ≠ "string" then .invalid defaultErrorMessage
      else .valid (tryToParseString runtime value)
    | .number =>
      if strict ∧ value.typeof ≠ "number" then .invalid defaultErrorMessage
      else .ofParsed (tryToParseNumber runtime value) defaultErrorMessage
    | .boolean =>
      if strict ∧ value.typeof ≠ "boolean" then .invalid defaultErrorMessage
      else .ofParsed (tryToParseBoolean runtime value) defaultErrorMessage
    | .dateTime => .ofParsed (tryToParseDateTime runtime value) (defaultErrorMessage ++ dateTimeHint)
    | .object =>
      if strict ∧ ¬ value.isObject then .invalid defaultErrorMessage
      else .ofParsed (tryToParseObject runtime value) defaultErrorMessage
    | .array =>
      if strict ∧ ¬ value.isArray then .invalid defaultErrorMessage
      else .ofParsed (tryToParseArray runtime value) defaultErrorMessage
    | .any => .valid value

end

end N8n.NodeParameters
