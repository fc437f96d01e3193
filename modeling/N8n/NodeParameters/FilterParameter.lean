import N8n.NodeParameters.TypeValidation

/-! # Filter parameters

`packages/workflow/src/NodeParameters/FilterParameter.ts`: the values of a filter
condition are converted to the types of its operator, both when the filter is
executed and when it is validated.  The conversion reports a failure in its
result; `executeFilterCondition` throws it, `validateFilterParameter` only looks
at what is thrown.
-/

namespace N8n.NodeParameters

structure FilterOperatorValue where
  type : FilterOperatorType
  operation : String
  rightType : Option FilterOperatorType := none
  singleValue : Option Bool := none
deriving DecidableEq

structure FilterConditionValue (Number Date DateTime : Type) where
  id : String
  leftValue : JsValue Number Date DateTime
  operator : FilterOperatorValue
  rightValue : JsValue Number Date DateTime

structure FilterOptionsValue where
  caseSensitive : Bool
  leftValue : String
  /-- Whether `typeValidation` is `strict`, and not `loose`. -/
  strict : Bool
  version : Option Nat

inductive FilterTypeCombinator where
  | and
  | or

structure FilterValue (Number Date DateTime : Type) where
  options : FilterOptionsValue
  conditions : List (FilterConditionValue Number Date DateTime)
  combinator : FilterTypeCombinator

inductive ErrorFormat where
  | full
  | inline
deriving DecidableEq

structure FilterConditionMetadata where
  index : Option Nat := none
  unresolvedExpressions : Option Bool := none
  itemIndex : Option Nat := none
  errorFormat : Option ErrorFormat := none

structure FilterError where
  message : String
  description : String
deriving DecidableEq

/-- What the execution of a condition can throw. -/
inductive FilterThrown where
  | filterError (error : FilterError)
  | typeError
  | syntaxError

def withIndefiniteArticle (noun : String) : String :=
  let article := if (noun.toList.head?.elim true fun first => first ∈ "aeiou".toList) then "an" else "a"
  article ++ " " ++ noun

section

variable {Number Date DateTime : Type} (runtime : Runtime Number Date DateTime)

/-- A value for a boolean when types are not checked strictly. -/
def parseLooseBoolean (value : JsValue Number Date DateTime) (version : Nat) :
    ValidationResult (JsValue Number Date DateTime) :=
  let fallback := .valid (.boolean (runtime.isTruthy value))
  if version ≥ 2 then
    match validateFieldType runtime "filter" value .boolean false false with
    | .valid newValue => .valid newValue
    | .invalid _ => fallback
  else fallback

def parseSingleFilterValue (value : JsValue Number Date DateTime) (type : FilterOperatorType) (strict : Bool)
    (version : Nat) : ValidationResult (JsValue Number Date DateTime) :=
  let isNothing : Bool := match value with
    | .undefined | .null => true
    | _ => false
  let isNaN : Bool := match value with
    | .number number => runtime.isNaN number
    | _ => false
  if type = .any ∨ isNothing then .valid value
  else if type = .boolean ∧ ¬ strict then parseLooseBoolean runtime value version
  else if type = .number ∧ isNaN then .valid value
  else validateFieldType runtime "filter" value type strict true

/-- `metadata.unresolvedExpressions && typeof value === 'string' && value.startsWith('=')` -/
def isUnresolved (metadata : FilterConditionMetadata) (value : JsValue Number Date DateTime) : Bool :=
  match metadata.unresolvedExpressions, value with
  | some true, .string text => text.toList.head? = some '='
  | _, _ => false

def composeInvalidTypeMessage (strict : Bool) (suffix type fromType value : String) : String :=
  if strict then
    "Wrong type: '" ++ value ++ "' is " ++ withIndefiniteArticle (runtime.toLocaleLowerCase fromType) ++
      " but was expecting " ++ withIndefiniteArticle type ++ " " ++ suffix
  else
    "Conversion error: the " ++ runtime.toLocaleLowerCase fromType ++ " '" ++ value ++
      "' can't be converted to " ++ withIndefiniteArticle type ++ " " ++ suffix

def getTypeDescription (isStrict : Bool) : String :=
  if isStrict then
    "Try changing the type of comparison. Alternatively you can enable 'Convert types where required'."
  else "Try changing the type of the comparison."

def composeInvalidTypeDescription (strict : Bool) (type : FilterOperatorType) (valuePosition : String) : String :=
  let convertionFunction := match type with
    | .string => ".toString()"
    | .number => ".toNumber()"
    | .boolean => ".toBoolean()"
    | _ => ""
  if strict ∧ convertionFunction ≠ "" then
    "\n<p>Try either:</p>\n<ol>\n  <li>Enabling 'Convert types where required'</li>\n  <li>Converting the " ++
      valuePosition ++ " field to " ++ withIndefiniteArticle type.value ++ " by adding <code>" ++
      convertionFunction ++ "</code></li>\n</ol>\n\t\t\t"
  else getTypeDescription strict

/-- The left value, and the right value unless the operator has none, can be used. -/
def leftValid (condition : FilterConditionValue Number Date DateTime) (options : FilterOptionsValue)
    (metadata : FilterConditionMetadata) : Bool :=
  (parseSingleFilterValue runtime condition.leftValue condition.operator.type options.strict
    (options.version.getD 1)).isValid || isUnresolved metadata condition.leftValue

def rightValid (condition : FilterConditionValue Number Date DateTime) (options : FilterOptionsValue)
    (metadata : FilterConditionMetadata) : Bool :=
  (parseSingleFilterValue runtime condition.rightValue
    (condition.operator.rightType.getD condition.operator.type) options.strict
    (options.version.getD 1)).isValid || condition.operator.singleValue.getD false ||
      isUnresolved metadata condition.rightValue

def ValidationResult.newValue : ValidationResult (JsValue Number Date DateTime) → JsValue Number Date DateTime
  | .valid newValue => newValue
  | .invalid _ => .undefined

def parseFilterConditionValues (condition : FilterConditionValue Number Date DateTime)
    (options : FilterOptionsValue) (metadata : FilterConditionMetadata) :
    Except FilterError (JsValue Number Date DateTime × JsValue Number Date DateTime) :=
  let index := metadata.index.getD 0
  let itemIndex := metadata.itemIndex.getD 0
  let strict := options.strict
  let version := options.version.getD 1
  let rightType := condition.operator.rightType.getD condition.operator.type
  let suffix := match metadata.errorFormat.getD .full with
    | .full => "[condition " ++ toString index ++ ", item " ++ toString itemIndex ++ "]"
    | .inline => "[item " ++ toString itemIndex ++ "]"
  let leftFits := leftValid runtime condition options metadata
  let rightFits := rightValid runtime condition options metadata
  if ¬ leftFits ∧ ¬ rightFits ∧ condition.leftValue.typeof = condition.rightValue.typeof then
    .error {
      message := "Comparison type expects " ++ withIndefiniteArticle condition.operator.type.value ++
        " but both fields are " ++ withIndefiniteArticle condition.leftValue.typeof
      description := getTypeDescription strict }
  else if ¬ leftFits then
    .error {
      message := composeInvalidTypeMessage runtime strict suffix condition.operator.type.value
        condition.leftValue.typeof (runtime.toText condition.leftValue)
      description := composeInvalidTypeDescription strict condition.operator.type "first" }
  else if ¬ rightFits then
    .error {
      message := composeInvalidTypeMessage runtime strict suffix rightType.value
        condition.rightValue.typeof (runtime.toText condition.rightValue)
      description := composeInvalidTypeDescription strict rightType "second" }
  else
    .ok ((parseSingleFilterValue runtime condition.leftValue condition.operator.type strict version).newValue,
      (parseSingleFilterValue runtime condition.rightValue rightType strict version).newValue)

/-! ## Execution -/

/-- `^/(.*?)/([gimusy]*)$`: the body ends at the last slash, because no flag is one. -/
def splitRegexPattern (pattern : List Char) : Option (List Char × List Char) :=
  match pattern with
  | [] => none
  | first :: rest =>
    let flags := (rest.reverse.takeWhile fun char => char ≠ '/').reverse
    let body := (rest.reverse.dropWhile fun char => char ≠ '/').reverse.dropLast
    if first = '/' ∧ '/' ∈ rest ∧ (∀ flag ∈ flags, flag ∈ "gimusy".toList) ∧
        ∀ char ∈ body, char ∉ ['\n', '\r', '\u2028', '\u2029'] then some (body, flags)
    else none

/-- `parseRegexPattern(pattern).test(text)` -/
def testPattern (pattern : JsValue Number Date DateTime) (text : String) : Except FilterThrown Bool :=
  let test (source flags : String) : Except FilterThrown Bool :=
    match runtime.regexTest source flags text with
    | some result => .ok result
    | none => .error .syntaxError
  match pattern with
  | .string pattern =>
    match splitRegexPattern pattern.toList with
    | some (body, flags) => test (String.ofList body) (String.ofList flags)
    | none => test pattern ""
  | other => if runtime.isTruthy other then .error .typeError else test "" ""

def arrayContainsValue (array : List (JsValue Number Date DateTime)) (value : JsValue Number Date DateTime)
    (ignoreCase : Bool) : Bool :=
  match ignoreCase, value with
  | true, .string text => array.any fun item =>
    match item with
    | .string itemText => runtime.toLocaleLowerCase itemText = runtime.toLocaleLowerCase text
    | _ => false
  | _, _ => array.any fun item =>
    match item, value with
    | .number first, .number second => (runtime.isNaN first && runtime.isNaN second) ||
      runtime.strictEquals item value
    | _, _ => runtime.strictEquals item value

def stringOperation (operation : String) (left : String) (right : JsValue Number Date DateTime) :
    Option (Except FilterThrown Bool) :=
  let text := runtime.toText right
  match operation with
  | "empty" => some (.ok (left = ""))
  | "notEmpty" => some (.ok (left ≠ ""))
  | "equals" => some (.ok (runtime.strictEquals (.string left) right))
  | "notEquals" => some (.ok (!runtime.strictEquals (.string left) right))
  | "contains" => some (.ok (text.toList <:+: left.toList))
  | "notContains" => some (.ok (¬ text.toList <:+: left.toList))
  | "startsWith" => some (.ok (text.toList <+: left.toList))
  | "notStartsWith" => some (.ok (¬ text.toList <+: left.toList))
  | "endsWith" => some (.ok (text.toList <:+ left.toList))
  | "notEndsWith" => some (.ok (¬ text.toList <:+ left.toList))
  | "regex" => some (testPattern runtime right left)
  | "notRegex" => some ((testPattern runtime right left).map not)
  | _ => none

def numberOperation (operation : String) (present : Bool) (left right : JsValue Number Date DateTime) :
    Option (Except FilterThrown Bool) :=
  match operation with
  | "empty" => some (.ok (!present))
  | "notEmpty" => some (.ok present)
  | "equals" => some (.ok (runtime.strictEquals left right))
  | "notEquals" => some (.ok (!runtime.strictEquals left right))
  | "gt" => some (.ok (runtime.less right left))
  | "lt" => some (.ok (runtime.less left right))
  | "gte" => some (.ok (runtime.lessOrEqual right left))
  | "lte" => some (.ok (runtime.lessOrEqual left right))
  | _ => none

def dateTimeOperation (operation : String) (present : Bool) (left right : JsValue Number Date DateTime) :
    Option (Except FilterThrown Bool) :=
  let compare (relation : Number → Number → Bool) : Option (Except FilterThrown Bool) :=
    match runtime.toMillis left, runtime.toMillis right with
    | some first, some second => some (.ok (relation first second))
    | _, _ => some (.error .typeError)
  match operation with
  | "empty" => some (.ok (!present))
  | "notEmpty" => some (.ok present)
  | _ =>
    if ¬ runtime.isTruthy left ∨ ¬ runtime.isTruthy right then some (.ok false)
    else
      match operation with
      | "equals" => compare fun first second => runtime.strictEquals (.number first) (.number second)
      | "notEquals" => compare fun first second => !runtime.strictEquals (.number first) (.number second)
      | "after" => compare fun first second => runtime.less (.number second) (.number first)
      | "before" => compare fun first second => runtime.less (.number first) (.number second)
      | "afterOrEquals" => compare fun first second => runtime.lessOrEqual (.number second) (.number first)
      | "beforeOrEquals" => compare fun first second => runtime.lessOrEqual (.number first) (.number second)
      | _ => none

def booleanOperation (operation : String) (present : Bool) (left right : JsValue Number Date DateTime) :
    Option (Except FilterThrown Bool) :=
  match operation with
  | "empty" => some (.ok (!present))
  | "notEmpty" => some (.ok present)
  | "true" => some (.ok (runtime.isTruthy left))
  | "false" => some (.ok (!runtime.isTruthy left))
  | "equals" => some (.ok (runtime.strictEquals left right))
  | "notEquals" => some (.ok (!runtime.strictEquals left right))
  | _ => none

/-- A left value without `includes` and `length` makes the operations on arrays throw or compare with
`undefined`; only values that were parsed for another type can be such. -/
def arrayOperation (operation : String) (left right : JsValue Number Date DateTime) (ignoreCase : Bool) :
    Option (Except FilterThrown Bool) :=
  let array : Option (List (JsValue Number Date DateTime)) := match left.orElse (.array []) with
    | .array items => some items
    | _ => none
  let length : JsValue Number Date DateTime := match array with
    | some items => .number (runtime.ofNat items.length)
    | none => .undefined
  let contains : Except FilterThrown Bool := match array with
    | some items => .ok (arrayContainsValue runtime items right ignoreCase)
    | none => .error .typeError
  match operation with
  | "contains" => some contains
  | "notContains" => some (contains.map not)
  | "lengthEquals" => some (.ok (runtime.strictEquals length right))
  | "lengthNotEquals" => some (.ok (!runtime.strictEquals length right))
  | "lengthGt" => some (.ok (runtime.less right length))
  | "lengthLt" => some (.ok (runtime.less length right))
  | "lengthGte" => some (.ok (runtime.lessOrEqual right length))
  | "lengthLte" => some (.ok (runtime.lessOrEqual length right))
  | "empty" => some (.ok (runtime.strictEquals length (.number (runtime.ofNat 0))))
  | "notEmpty" => some (.ok (!runtime.strictEquals length (.number (runtime.ofNat 0))))
  | _ => none

def objectOperation (operation : String) (left : JsValue Number Date DateTime) :
    Option (Except FilterThrown Bool) :=
  let hasKeys := match left with
    | .object fields => !fields.isEmpty
    | .array items => !items.isEmpty
    | .string text => text ≠ ""
    | _ => false
  match operation with
  | "empty" => some (.ok (!runtime.isTruthy left || !hasKeys))
  | "notEmpty" => some (.ok (runtime.isTruthy left && hasKeys))
  | _ => none

def JsValue.lowerIf (ignoreCase : Bool) (value : JsValue Number Date DateTime) : JsValue Number Date DateTime :=
  match ignoreCase, value with
  | true, .string text => .string (runtime.toLocaleLowerCase text)
  | _, other => other

/-- The switch over the type of the operator.  A case whose operations do not fit falls through to the
next one, except for strings. -/
def compareValues (operator : FilterOperatorValue) (ignoreCase present : Bool)
    (left right : JsValue Number Date DateTime) : Option (Except FilterThrown Bool) :=
  let operation := operator.operation
  let fromObject := objectOperation runtime operation left
  let fromArray := (arrayOperation runtime operation left right ignoreCase).or fromObject
  let fromBoolean := (booleanOperation runtime operation present left right).or fromArray
  let fromDateTime := (dateTimeOperation runtime operation present left right).or fromBoolean
  match operator.type with
  | .string =>
    let right := if operation = "regex" ∨ operation = "notRegex" then right
      else right.lowerIf runtime ignoreCase
    match (left.lowerIf runtime ignoreCase).orElse (.string "") with
    | .string left => stringOperation runtime operation left (right.orElse (.string ""))
    | _ => some (.error .typeError)
  | .number => (numberOperation runtime operation present left right).or fromDateTime
  | .dateTime => fromDateTime
  | .boolean => fromBoolean
  | .array => fromArray
  | .object => fromObject
  | .any => none

def executeFilterCondition (condition : FilterConditionValue Number Date DateTime)
    (filterOptions : FilterOptionsValue) (metadata : FilterConditionMetadata) : Except FilterThrown Bool :=
  match parseFilterConditionValues runtime condition filterOptions metadata with
  | .error error => .error (.filterError error)
  | .ok (leftValue, rightValue) =>
    let present : Bool := match leftValue with
      | .undefined | .null => false
      | .number number => !runtime.isNaN number
      | _ => true
    if condition.operator.operation = "exists" then .ok present
    else if condition.operator.operation = "notExists" then .ok (!present)
    else (compareValues runtime condition.operator (!filterOptions.caseSensitive) present leftValue
      rightValue).getD (.ok false)

/-! ## Validation -/

/-- The issues by key.  The conversion does not throw, so the `catch` of the source is never entered. -/
def validateFilterParameter (name : String) (value : FilterValue Number Date DateTime) :
    Except FilterThrown (List (String × List String)) :=
  value.conditions.zipIdx.foldlM (fun issues (condition, index) =>
    let key := name ++ "." ++ toString index
    let parsed : Except FilterThrown
        (Except FilterError (JsValue Number Date DateTime × JsValue Number Date DateTime)) :=
      .ok (parseFilterConditionValues runtime condition value.options
        { index := some index, unresolvedExpressions := some true, errorFormat := some .inline })
    match parsed with
    | .error (.filterError error) =>
      -- `issues[key].push(error.message)`
      match issues.lookup key with
      | none => .error .typeError
      | some messages => .ok ((key, messages ++ [error.message]) :: issues)
    | .error _ => .ok issues
    | .ok _ => .ok issues) []

/-! ## When a value converts -/

/-- The value can be taken for the type of an operator. -/
def Converts (value : JsValue Number Date DateTime) (type : FilterOperatorType) (strict : Bool) : Prop :=
  match value with
  | .undefined | .null => True
  | value =>
    match type with
    | .any => True
    | .string => strict = true → value.typeof = "string"
    | .boolean => strict = true → value.typeof = "boolean"
    | .number =>
      (∃ number, value = .number number ∧ runtime.isNaN number = true) ∨
        (strict = true → value.typeof = "number") ∧ runtime.isNaN (runtime.toNumber value) = false
    | .dateTime => (tryToParseDateTime runtime value).isSome = true
    | .object => (strict = true → value.isObject = true) ∧ (tryToParseObject runtime value).isSome = true
    | .array => (strict = true → value.isArray = true) ∧ (tryToParseArray runtime value).isSome = true

theorem isValid_ite {Value : Type} (test : Prop) [Decidable test] (first second : ValidationResult Value) :
    (if test then first else second).isValid = if test then first.isValid else second.isValid := by
  split <;> rfl

theorem isSome_tryToParseNumber (value : JsValue Number Date DateTime) :
    (tryToParseNumber runtime value).isSome = !runtime.isNaN (runtime.toNumber value) := by
  rw [tryToParseNumber]
  split <;> simp [*]

theorem isValid_parseLooseBoolean (value : JsValue Number Date DateTime) (version : Nat) :
    (parseLooseBoolean runtime value version).isValid = true := by
  rw [parseLooseBoolean]
  split
  · split <;> rfl
  · rfl

/-- The converter accepts a value if and only if it converts. -/
theorem isValid_parseSingleFilterValue (value : JsValue Number Date DateTime) (type : FilterOperatorType)
    (strict : Bool) (version : Nat) :
    (parseSingleFilterValue runtime value type strict version).isValid = true ↔
      Converts runtime value type strict := by
  cases type with
  | any => cases value <;> simp [parseSingleFilterValue, Converts]
  | boolean =>
    cases strict with
    | false => cases value <;> simp [parseSingleFilterValue, Converts, isValid_parseLooseBoolean]
    | true =>
      cases value <;> simp [parseSingleFilterValue, Converts, validateFieldType, JsValue.typeof,
        tryToParseBoolean]
  | string =>
    cases value <;> cases strict <;>
      simp [parseSingleFilterValue, Converts, validateFieldType, JsValue.typeof]
  | dateTime =>
    cases value <;> simp [parseSingleFilterValue, Converts, validateFieldType]
  | object =>
    cases value <;> cases strict <;>
      simp [parseSingleFilterValue, Converts, validateFieldType, JsValue.isObject]
  | array =>
    cases value <;> cases strict <;>
      simp [parseSingleFilterValue, Converts, validateFieldType, JsValue.isArray]
  | number =>
    cases value <;> cases strict <;>
      simp [parseSingleFilterValue, Converts, validateFieldType, isValid_ite,
        isSome_tryToParseNumber, JsValue.typeof]

/-- Both values of the condition can be used: each converts to its type or is an unresolved expression,
or the operator needs no right value. -/
def BothConvert (condition : FilterConditionValue Number Date DateTime) (options : FilterOptionsValue)
    (metadata : FilterConditionMetadata) : Prop :=
  (Converts runtime condition.leftValue condition.operator.type options.strict ∨
      isUnresolved metadata condition.leftValue = true) ∧
    (Converts runtime condition.rightValue (condition.operator.rightType.getD condition.operator.type)
        options.strict ∨
      condition.operator.singleValue = some true ∨ isUnresolved metadata condition.rightValue = true)

theorem fits_iff (condition : FilterConditionValue Number Date DateTime) (options : FilterOptionsValue)
    (metadata : FilterConditionMetadata) :
    leftValid runtime condition options metadata = true ∧ rightValid runtime condition options metadata = true ↔
      BothConvert runtime condition options metadata := by
  have single : condition.operator.singleValue.getD false = true ↔ condition.operator.singleValue = some true := by
    cases condition.operator.singleValue <;> simp
  simp only [leftValid, rightValid, Bool.or_eq_true, isValid_parseSingleFilterValue, single, BothConvert, or_assoc]

theorem parseFilterConditionValues_ok_iff (condition : FilterConditionValue Number Date DateTime)
    (options : FilterOptionsValue) (metadata : FilterConditionMetadata) :
    (∃ values, parseFilterConditionValues runtime condition options metadata = .ok values) ↔
      BothConvert runtime condition options metadata := by
  rw [← fits_iff]
  constructor
  · rintro ⟨values, parses⟩
    rw [parseFilterConditionValues] at parses
    split at parses
    · cases parses
    · split at parses
      · cases parses
      · split at parses
        · cases parses
        · rename_i leftFits rightFits
          exact ⟨Decidable.not_not.mp leftFits, Decidable.not_not.mp rightFits⟩
  · rintro ⟨leftFits, rightFits⟩
    simp only [parseFilterConditionValues, leftFits, rightFits, not_true, false_and, if_false]
    exact ⟨_, rfl⟩

/-! ## What a comparison throws -/

def ThrowsNoFilterError (result : Except FilterThrown Bool) : Prop :=
  ∀ error, result ≠ .error (.filterError error)

@[simp] theorem throwsNoFilterError_ok (value : Bool) : ThrowsNoFilterError (.ok value) := by
  intro error thrown
  cases thrown

@[simp] theorem throwsNoFilterError_typeError : ThrowsNoFilterError (.error .typeError) := by
  intro error thrown
  cases thrown

@[simp] theorem throwsNoFilterError_syntaxError : ThrowsNoFilterError (.error .syntaxError) := by
  intro error thrown
  cases thrown

theorem ThrowsNoFilterError.map {result : Except FilterThrown Bool} (safe : ThrowsNoFilterError result)
    (change : Bool → Bool) : ThrowsNoFilterError (result.map change) := by
  cases result with
  | ok value => exact throwsNoFilterError_ok (change value)
  | error thrown =>
    intro error same
    exact safe error (congrArg Except.error (Except.error.inj same))

/-- The same for a case of the comparison that may have nothing to say. -/
def CaseSafe (result : Option (Except FilterThrown Bool)) : Prop :=
  ∀ outcome ∈ result, ThrowsNoFilterError outcome

@[simp] theorem caseSafe_none : CaseSafe none := fun _ impossible => by cases impossible

@[simp] theorem caseSafe_some (outcome : Except FilterThrown Bool) :
    CaseSafe (some outcome) ↔ ThrowsNoFilterError outcome := by
  simp [CaseSafe]

theorem CaseSafe.or {first second : Option (Except FilterThrown Bool)} (firstSafe : CaseSafe first)
    (secondSafe : CaseSafe second) : CaseSafe (first.or second) := by
  cases first with
  | none => exact secondSafe
  | some outcome => exact firstSafe

theorem CaseSafe.getD {result : Option (Except FilterThrown Bool)} (safe : CaseSafe result) :
    ThrowsNoFilterError (result.getD (.ok false)) := by
  cases result with
  | none => exact throwsNoFilterError_ok false
  | some outcome => exact (caseSafe_some outcome).mp safe

theorem throwsNoFilterError_testPattern (pattern : JsValue Number Date DateTime) (text : String) :
    ThrowsNoFilterError (testPattern runtime pattern text) := by
  have ran : ∀ source flags, ThrowsNoFilterError (match runtime.regexTest source flags text with
      | some result => .ok result
      | none => .error .syntaxError) := by
    intro source flags
    split <;> simp
  unfold testPattern
  dsimp only
  split
  · split <;> exact ran _ _
  · split
    · simp
    · exact ran _ _

variable (operation : String)

theorem caseSafe_stringOperation (left : String) (right : JsValue Number Date DateTime) :
    CaseSafe (stringOperation runtime operation left right) := by
  unfold stringOperation
  have pattern := throwsNoFilterError_testPattern runtime right left
  split <;> simp [pattern, pattern.map]

theorem caseSafe_numberOperation (present : Bool)
    (left right : JsValue Number Date DateTime) :
    CaseSafe (numberOperation runtime operation present left right) := by
  unfold numberOperation
  split <;> simp

theorem caseSafe_dateTimeOperation (present : Bool)
    (left right : JsValue Number Date DateTime) :
    CaseSafe (dateTimeOperation runtime operation present left right) := by
  unfold dateTimeOperation
  dsimp only
  split
  · simp
  · simp
  · split
    · simp
    · split <;> first | simp | (split <;> simp)

theorem caseSafe_booleanOperation (present : Bool)
    (left right : JsValue Number Date DateTime) :
    CaseSafe (booleanOperation runtime operation present left right) := by
  unfold booleanOperation
  split <;> simp

theorem caseSafe_arrayOperation (left right : JsValue Number Date DateTime)
    (ignoreCase : Bool) : CaseSafe (arrayOperation runtime operation left right ignoreCase) := by
  unfold arrayOperation
  dsimp only
  generalize (match left.orElse (.array []) with
    | .array items => some items
    | _ => none : Option (List (JsValue Number Date DateTime))) = array
  have contains : ThrowsNoFilterError (match array with
      | some items => .ok (arrayContainsValue runtime items right ignoreCase)
      | none => .error .typeError) := by
    cases array <;> simp
  split <;> simp [contains, contains.map]

theorem caseSafe_objectOperation (left : JsValue Number Date DateTime) :
    CaseSafe (objectOperation runtime operation left) := by
  unfold objectOperation
  dsimp only
  generalize (match left with
    | .object fields => !fields.isEmpty
    | .array items => !items.isEmpty
    | .string text => text ≠ ""
    | _ => false : Bool) = hasKeys
  split <;> simp

theorem caseSafe_compareValues (operator : FilterOperatorValue) (ignoreCase present : Bool)
    (left right : JsValue Number Date DateTime) :
    CaseSafe (compareValues runtime operator ignoreCase present left right) := by
  have fromObject := caseSafe_objectOperation runtime operator.operation left
  have fromArray := (caseSafe_arrayOperation runtime operator.operation left right ignoreCase).or fromObject
  have fromBoolean := (caseSafe_booleanOperation runtime operator.operation present left right).or fromArray
  have fromDateTime := (caseSafe_dateTimeOperation runtime operator.operation present left right).or fromBoolean
  unfold compareValues
  dsimp only
  cases operator.type with
  | string =>
    dsimp only
    split
    · exact caseSafe_stringOperation runtime _ _ _
    · simp
  | number => exact (caseSafe_numberOperation runtime operator.operation present left right).or fromDateTime
  | dateTime => exact fromDateTime
  | boolean => exact fromBoolean
  | array => exact fromArray
  | object => exact fromObject
  | any => exact caseSafe_none

/-- The execution of a condition throws an error of a conversion if and only if one of its values
cannot be used. -/
theorem executeFilterCondition_throws_iff (condition : FilterConditionValue Number Date DateTime)
    (options : FilterOptionsValue) (metadata : FilterConditionMetadata) :
    (∃ error, executeFilterCondition runtime condition options metadata = .error (.filterError error)) ↔
      ¬ BothConvert runtime condition options metadata := by
  rw [← parseFilterConditionValues_ok_iff]
  cases parsed : parseFilterConditionValues runtime condition options metadata with
  | error error =>
    have throws : executeFilterCondition runtime condition options metadata = .error (.filterError error) := by
      rw [executeFilterCondition, parsed]
    exact iff_of_true ⟨error, throws⟩ (by simp)
  | ok values =>
    obtain ⟨leftValue, rightValue⟩ := values
    refine iff_of_false ?_ (by simp)
    rintro ⟨error, throws⟩
    rw [executeFilterCondition, parsed] at throws
    dsimp only at throws
    split at throws
    · cases throws
    · split at throws
      · cases throws
      · exact (caseSafe_compareValues runtime _ _ _ _ _).getD error throws

/-! ## Validation against execution -/

/-- The conversion never throws, so that validation finds nothing. -/
theorem validateFilterParameter_eq (name : String) (value : FilterValue Number Date DateTime) :
    validateFilterParameter runtime name value = .ok [] := by
  rw [validateFilterParameter]
  generalize value.conditions.zipIdx = conditions
  induction conditions with
  | nil => rfl
  | cons first rest ih => exact ih

def ReportsIssue (name : String) (value : FilterValue Number Date DateTime) (index : Nat) : Prop :=
  ∃ issues messages, validateFilterParameter runtime name value = .ok issues ∧
    issues.lookup (name ++ "." ++ toString index) = some messages ∧ messages ≠ []

def unresolved : FilterConditionMetadata := { unresolvedExpressions := some true }

/-- Validation and execution agree on a condition exactly when both of its values can be used. -/
theorem reportsIssue_iff_throws_iff (name : String) (value : FilterValue Number Date DateTime)
    (index : Fin value.conditions.length) :
    (ReportsIssue runtime name value index ↔
        ∃ error, executeFilterCondition runtime (value.conditions.get index) value.options unresolved =
          .error (.filterError error)) ↔
      BothConvert runtime (value.conditions.get index) value.options unresolved := by
  have reportsNothing : ¬ ReportsIssue runtime name value index := by
    rintro ⟨issues, messages, returns, found, _⟩
    rw [validateFilterParameter_eq] at returns
    cases returns
    cases found
  rw [executeFilterCondition_throws_iff]
  constructor
  · intro agree
    by_contra notBoth
    exact reportsNothing (agree.mpr notBoth)
  · intro both
    exact iff_of_false reportsNothing (not_not.mpr both)

end

/-! A text for a number: the execution throws, the validation has no issue. -/

namespace TextForNumber

def condition : FilterConditionValue Unit Unit Unit where
  id := "1"
  leftValue := .string "abc"
  operator := { type := .number, operation := "gt" }
  rightValue := .undefined

def filter : FilterValue Unit Unit Unit where
  options := { caseSensitive := true, leftValue := "", strict := true, version := some 2 }
  conditions := [condition]
  combinator := .and

/-- Every number that comes up here is NaN. -/
def runtime : Runtime Unit Unit Unit where
  isNaN _ := true
  ofNat _ := ()
  toNumber _ := ()
  toText
    | .string text => text
    | _ => "[object]"
  isTruthy
    | .string text => text != ""
    | .undefined | .null | .number _ => false
    | .boolean value => value
    | _ => true
  strictEquals
    | .string first, .string second => first == second
    | .undefined, .undefined => true
    | _, _ => false
  less _ _ := false
  lessOrEqual _ _ := false
  stringify
    | .string text => "\"" ++ text ++ "\""
    | _ => "null"
  jsonParse _ := none
  parseJSObject _ := none
  doubleQuotes text := text
  trim text := text
  toLowerCase text := text
  toLocaleLowerCase text := text
  fromJSDate date := date
  fromISO _ := ()
  fromHTTP _ := ()
  fromRFC2822 _ := ()
  fromSQL _ := ()
  fromParsedMillis _ := ()
  isValid _ := false
  toMillis _ := none
  regexTest _ _ _ := some false

theorem validation_disagrees :
    ¬ (ReportsIssue runtime "filter" filter 0 ↔
      ∃ error, executeFilterCondition runtime condition filter.options unresolved =
        .error (.filterError error)) := by
  intro agree
  have throws : ¬ BothConvert runtime condition filter.options unresolved := by
    rintro ⟨leftConverts, _⟩
    simp [condition, filter, unresolved, Converts, JsValue.typeof, isUnresolved] at leftConverts
  obtain ⟨issues, messages, returns, found, _⟩ :=
    agree.mpr ((executeFilterCondition_throws_iff runtime _ _ _).mpr throws)
  rw [validateFilterParameter_eq] at returns
  cases returns
  cases found

end TextForNumber

end N8n.NodeParameters
