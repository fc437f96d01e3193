import N8n.NodeParameters.FilterParameter

/-! # Filter operators against each other

`executeFilterCondition` of `FilterParameter.ts`:
every operator is a branch of its own, over the same two parsed values.  Two
laws tie the branches together: an operator against its opposite, and the
positive operators on texts with and without regard to case.
-/

namespace N8n.NodeParameters

/-- The pairs of an operation and its opposite that the switch has for a type. -/
def oppositeOperations (type : FilterOperatorType) : List (String × String) :=
  ("exists", "notExists") :: match type with
  | .string => [("empty", "notEmpty"), ("equals", "notEquals"), ("contains", "notContains"),
      ("startsWith", "notStartsWith"), ("endsWith", "notEndsWith"), ("regex", "notRegex")]
  | .number | .boolean | .dateTime => [("empty", "notEmpty"), ("equals", "notEquals")]
  | .array => [("empty", "notEmpty"), ("contains", "notContains"), ("lengthEquals", "lengthNotEquals")]
  | .object => [("empty", "notEmpty")]
  | .any => []

/-- The second operator is the opposite of the first one, on values of the same types. -/
structure Opposite (positive negative : FilterOperatorValue) : Prop where
  type : negative.type = positive.type
  rightType : negative.rightType = positive.rightType
  operations : (positive.operation, negative.operation) ∈ oppositeOperations positive.type

/-- Whether a value exists is asked ahead of the switch, for every type. -/
theorem exists_of_opposite (type : FilterOperatorType) :
    ∀ pair ∈ oppositeOperations type, pair.1 ≠ "notExists" ∧ pair.2 ≠ "exists" ∧
      (pair.1 = "exists" ↔ pair.2 = "notExists") := by
  cases type <;> decide

section

variable {Number Date DateTime : Type} (runtime : Runtime Number Date DateTime)

/-! ## The parsed values -/

theorem parseFilterConditionValues_eq {condition : FilterConditionValue Number Date DateTime}
    {options : FilterOptionsValue} {metadata : FilterConditionMetadata}
    {values : JsValue Number Date DateTime × JsValue Number Date DateTime}
    (parses : parseFilterConditionValues runtime condition options metadata = .ok values) :
    values =
      ((parseSingleFilterValue runtime condition.leftValue condition.operator.type options.strict
          (options.version.getD 1)).newValue,
        (parseSingleFilterValue runtime condition.rightValue
          (condition.operator.rightType.getD condition.operator.type) options.strict
          (options.version.getD 1)).newValue) := by
  simp only [parseFilterConditionValues] at parses
  split at parses
  · cases parses
  · split at parses
    · cases parses
    · split at parses
      · cases parses
      · exact (Except.ok.inj parses).symm

theorem Opposite.sameValues {condition : FilterConditionValue Number Date DateTime}
    {options : FilterOptionsValue} {metadata : FilterConditionMetadata} {negative : FilterOperatorValue}
    (opposite : Opposite condition.operator negative)
    {values negativeValues : JsValue Number Date DateTime × JsValue Number Date DateTime}
    (parses : parseFilterConditionValues runtime condition options metadata = .ok values)
    (negativeParses : parseFilterConditionValues runtime { condition with operator := negative } options
      metadata = .ok negativeValues) : negativeValues = values := by
  rw [parseFilterConditionValues_eq runtime parses, parseFilterConditionValues_eq runtime negativeParses]
  simp only [opposite.type, opposite.rightType]

/-! ## Opposite branches -/

/-- Both branches are taken, and the second one returns the negation of the first. -/
def Negated (first second : Option (Except FilterThrown Bool)) : Prop :=
  ∃ outcome, first = some outcome ∧ second = some (outcome.map not)

theorem negated_ok (value : Bool) : Negated (some (.ok value)) (some (.ok (!value))) := ⟨.ok value, rfl, rfl⟩

theorem negated_map (outcome : Except FilterThrown Bool) : Negated (some outcome) (some (outcome.map not)) :=
  ⟨outcome, rfl, rfl⟩

/-- What a case falls through to does not matter. -/
theorem Negated.or {first second : Option (Except FilterThrown Bool)} (negated : Negated first second)
    (next negativeNext : Option (Except FilterThrown Bool)) :
    Negated (first.or next) (second.or negativeNext) := by
  obtain ⟨outcome, firstIs, secondIs⟩ := negated
  exact ⟨outcome, by rw [firstIs, Option.some_or], by rw [secondIs, Option.some_or]⟩

theorem Negated.returns {first second : Option (Except FilterThrown Bool)} (negated : Negated first second)
    {value negativeValue : Bool} (returns : first.getD (.ok false) = .ok value)
    (negativeReturns : second.getD (.ok false) = .ok negativeValue) : negativeValue = !value := by
  obtain ⟨outcome, firstIs, secondIs⟩ := negated
  rw [firstIs, Option.getD_some] at returns
  rw [secondIs, Option.getD_some, returns] at negativeReturns
  exact (Except.ok.inj negativeReturns).symm

theorem getD_eq_ok_true (result : Option (Except FilterThrown Bool)) :
    result.getD (.ok false) = .ok true ↔ result = some (.ok true) := by
  cases result <;> simp

variable {positive negative : String}

theorem negated_stringOperation (pair : (positive, negative) ∈ (oppositeOperations .string).tail) (left : String)
    (right : JsValue Number Date DateTime) :
    Negated (stringOperation runtime positive left right) (stringOperation runtime negative left right) := by
  have asTest (test : Prop) [Decidable test] :
      Negated (some (.ok (decide test))) (some (.ok (decide (¬ test)))) := by
    rw [decide_not]
    exact negated_ok _
  simp only [oppositeOperations, List.tail_cons, List.mem_cons, Prod.mk.injEq, List.not_mem_nil, or_false] at pair
  rcases pair with ⟨rfl, rfl⟩ | ⟨rfl, rfl⟩ | ⟨rfl, rfl⟩ | ⟨rfl, rfl⟩ | ⟨rfl, rfl⟩ | ⟨rfl, rfl⟩
  · exact asTest _
  · exact negated_ok _
  · exact asTest _
  · exact asTest _
  · exact asTest _
  · exact negated_map _

theorem negated_numberOperation (pair : (positive, negative) ∈ (oppositeOperations .number).tail) (present : Bool)
    (left right : JsValue Number Date DateTime) :
    Negated (numberOperation runtime positive present left right)
      (numberOperation runtime negative present left right) := by
  simp only [oppositeOperations, List.tail_cons, List.mem_cons, Prod.mk.injEq, List.not_mem_nil, or_false] at pair
  rcases pair with ⟨rfl, rfl⟩ | ⟨rfl, rfl⟩
  · exact ⟨.ok (!present), rfl, by simp [numberOperation, Except.map]⟩
  · exact negated_ok _

theorem negated_booleanOperation (pair : (positive, negative) ∈ (oppositeOperations .boolean).tail) (present : Bool)
    (left right : JsValue Number Date DateTime) :
    Negated (booleanOperation runtime positive present left right)
      (booleanOperation runtime negative present left right) := by
  simp only [oppositeOperations, List.tail_cons, List.mem_cons, Prod.mk.injEq, List.not_mem_nil, or_false] at pair
  rcases pair with ⟨rfl, rfl⟩ | ⟨rfl, rfl⟩
  · exact ⟨.ok (!present), rfl, by simp [booleanOperation, Except.map]⟩
  · exact negated_ok _

theorem negated_arrayOperation (pair : (positive, negative) ∈ (oppositeOperations .array).tail)
    (left right : JsValue Number Date DateTime) (ignoreCase : Bool) :
    Negated (arrayOperation runtime positive left right ignoreCase)
      (arrayOperation runtime negative left right ignoreCase) := by
  simp only [oppositeOperations, List.tail_cons, List.mem_cons, Prod.mk.injEq, List.not_mem_nil, or_false] at pair
  rcases pair with ⟨rfl, rfl⟩ | ⟨rfl, rfl⟩ | ⟨rfl, rfl⟩
  · exact negated_ok _
  · exact negated_map _
  · exact negated_ok _

theorem negated_objectOperation (pair : (positive, negative) ∈ (oppositeOperations .object).tail)
    (left : JsValue Number Date DateTime) :
    Negated (objectOperation runtime positive left) (objectOperation runtime negative left) := by
  simp only [oppositeOperations, List.tail_cons, List.mem_cons, Prod.mk.injEq, List.not_mem_nil, or_false] at pair
  obtain ⟨rfl, rfl⟩ := pair
  exact ⟨_, rfl, by simp [objectOperation, Except.map, Bool.not_or]⟩

/-- The guard ahead of the comparisons of times: with a missing time every one of them returns false. -/
def TimesMissing (operation : String) (left right : JsValue Number Date DateTime) : Prop :=
  operation = "equals" ∧ (runtime.isTruthy left = false ∨ runtime.isTruthy right = false)

variable {left right : JsValue Number Date DateTime}

theorem negated_dateTimeOperation (pair : (positive, negative) ∈ (oppositeOperations .dateTime).tail) (present : Bool)
    (given : ¬ TimesMissing runtime positive left right) :
    Negated (dateTimeOperation runtime positive present left right)
      (dateTimeOperation runtime negative present left right) := by
  simp only [oppositeOperations, List.tail_cons, List.mem_cons, Prod.mk.injEq, List.not_mem_nil, or_false] at pair
  rcases pair with ⟨rfl, rfl⟩ | ⟨rfl, rfl⟩
  · exact ⟨.ok (!present), rfl, by simp [dateTimeOperation, Except.map]⟩
  · have bothTruthy : runtime.isTruthy left = true ∧ runtime.isTruthy right = true := by
      simpa [TimesMissing] using given
    simp only [dateTimeOperation, bothTruthy.1, bothTruthy.2, not_true, or_self, if_false]
    -- both branches ask the two values for their milliseconds, and throw alike
    cases runtime.toMillis left with
    | none => exact negated_map _
    | some first =>
      cases runtime.toMillis right with
      | none => exact negated_map _
      | some second => exact negated_ok _

theorem dateTimeOperation_of_missing (pair : (positive, negative) ∈ (oppositeOperations .dateTime).tail)
    (present : Bool) (missing : TimesMissing runtime positive left right) :
    dateTimeOperation runtime positive present left right = some (.ok false) ∧
      dateTimeOperation runtime negative present left right = some (.ok false) := by
  obtain ⟨rfl, falsy⟩ := missing
  have isNegative : negative = "notEquals" := by simpa [oppositeOperations] using pair
  have guarded : ¬ runtime.isTruthy left ∨ ¬ runtime.isTruthy right := by simpa using falsy
  subst isNegative
  exact ⟨if_pos guarded, if_pos guarded⟩

theorem negated_compareValues {positive negative : FilterOperatorValue} (opposite : Opposite positive negative)
    (notExists : positive.operation ≠ "exists") (ignoreCase present : Bool)
    (text : positive.type = .string → ∃ text, (left.lowerIf runtime ignoreCase).orElse (.string "") = .string text)
    (given : ¬ (positive.type = .dateTime ∧ TimesMissing runtime positive.operation left right)) :
    Negated (compareValues runtime positive ignoreCase present left right)
      (compareValues runtime negative ignoreCase present left right) := by
  obtain ⟨sameType, -, pair⟩ := opposite
  have inTail : (positive.operation, negative.operation) ∈ (oppositeOperations positive.type).tail := by
    simpa [oppositeOperations, notExists] using pair
  unfold compareValues
  dsimp only
  rw [sameType]
  cases typeIs : positive.type with
  | string =>
    obtain ⟨text, leftIs⟩ := text typeIs
    rw [typeIs] at inTail
    have patterns : positive.operation = "regex" ∨ positive.operation = "notRegex" ↔
        negative.operation = "regex" ∨ negative.operation = "notRegex" := by
      simp only [oppositeOperations, List.tail_cons, List.mem_cons, Prod.mk.injEq, List.not_mem_nil,
        or_false] at inTail
      rcases inTail with same | same | same | same | same | same <;> simp [same]
    simp only [leftIs, patterns]
    exact negated_stringOperation runtime inTail text _
  | number =>
    rw [typeIs] at inTail
    exact (negated_numberOperation runtime inTail present left right).or _ _
  | dateTime =>
    rw [typeIs] at inTail
    have given : ¬ TimesMissing runtime positive.operation left right := fun missing => given ⟨typeIs, missing⟩
    exact (negated_dateTimeOperation runtime inTail present given).or _ _
  | boolean =>
    rw [typeIs] at inTail
    exact (negated_booleanOperation runtime inTail present left right).or _ _
  | array =>
    rw [typeIs] at inTail
    exact (negated_arrayOperation runtime inTail left right ignoreCase).or _ _
  | object =>
    rw [typeIs] at inTail
    exact negated_objectOperation runtime inTail left
  | any => simp [oppositeOperations, typeIs] at inTail

/-- A value parsed for a string operator is a text or missing. -/
theorem exists_text_of_parsed (value : JsValue Number Date DateTime) (strict : Bool) (version : Nat)
    (ignoreCase : Bool) :
    ∃ text, ((parseSingleFilterValue runtime value .string strict version).newValue.lowerIf runtime
      ignoreCase).orElse (.string "") = .string text := by
  have parsed : ∀ parsed : JsValue Number Date DateTime,
      (∃ text, parsed = .string text) ∨ parsed = .undefined ∨ parsed = .null →
        ∃ text, (parsed.lowerIf runtime ignoreCase).orElse (.string "") = .string text := by
    rintro parsed (⟨text, rfl⟩ | rfl | rfl)
    · cases ignoreCase
      · exact ⟨text, rfl⟩
      · exact ⟨runtime.toLocaleLowerCase text, rfl⟩
    · cases ignoreCase <;> exact ⟨"", rfl⟩
    · cases ignoreCase <;> exact ⟨"", rfl⟩
  have toString (value : JsValue Number Date DateTime) : ∃ text, tryToParseString runtime value = .string text := by
    unfold tryToParseString
    split
    · exact ⟨_, rfl⟩
    · split <;> exact ⟨_, rfl⟩
  apply parsed
  cases value <;> cases strict <;>
    simp [parseSingleFilterValue, validateFieldType, JsValue.typeof, ValidationResult.newValue, toString]

/-! ## Opposite operators -/

/-- The guard for missing times stops the comparison of this condition. -/
def ComparesMissingTimes (condition : FilterConditionValue Number Date DateTime) (options : FilterOptionsValue)
    (metadata : FilterConditionMetadata) : Prop :=
  condition.operator.type = .dateTime ∧
    ∃ left right, parseFilterConditionValues runtime condition options metadata = .ok (left, right) ∧
      TimesMissing runtime condition.operator.operation left right

theorem executeFilterCondition_opposite (condition : FilterConditionValue Number Date DateTime)
    (options : FilterOptionsValue) (metadata : FilterConditionMetadata) (negative : FilterOperatorValue)
    (opposite : Opposite condition.operator negative) {result negativeResult : Bool}
    (returns : executeFilterCondition runtime condition options metadata = .ok result)
    (negativeReturns : executeFilterCondition runtime { condition with operator := negative } options metadata =
      .ok negativeResult) :
    (¬ ComparesMissingTimes runtime condition options metadata → negativeResult = !result) ∧
      (ComparesMissingTimes runtime condition options metadata → result = false ∧ negativeResult = false) := by
  rw [executeFilterCondition] at returns negativeReturns
  cases parsed : parseFilterConditionValues runtime condition options metadata with
  | error error =>
    rw [parsed] at returns
    cases returns
  | ok values =>
    cases negativeParsed : parseFilterConditionValues runtime { condition with operator := negative } options
        metadata with
    | error error =>
      rw [negativeParsed] at negativeReturns
      cases negativeReturns
    | ok negativeValues =>
      obtain rfl := opposite.sameValues runtime parsed negativeParsed
      have valuesAre := parseFilterConditionValues_eq runtime parsed
      obtain ⟨left, right⟩ := negativeValues
      rw [parsed] at returns
      rw [negativeParsed] at negativeReturns
      dsimp only at returns negativeReturns
      have missing : ComparesMissingTimes runtime condition options metadata ↔
          condition.operator.type = .dateTime ∧ TimesMissing runtime condition.operator.operation left right := by
        simp [ComparesMissingTimes, parsed]
      rw [missing]
      obtain ⟨notNegative, notPositive, existsIff⟩ := exists_of_opposite _ _ opposite.operations
      by_cases isExists : condition.operator.operation = "exists"
      · rw [if_pos isExists] at returns
        rw [if_neg notPositive, if_pos (existsIff.mp isExists)] at negativeReturns
        rw [← Except.ok.inj returns, ← Except.ok.inj negativeReturns]
        simp [TimesMissing, isExists]
      · rw [if_neg isExists, if_neg notNegative] at returns
        rw [if_neg notPositive, if_neg (existsIff.not.mp isExists)] at negativeReturns
        constructor
        · intro given
          have text : condition.operator.type = .string →
              ∃ text, (left.lowerIf runtime (!options.caseSensitive)).orElse (.string "") = .string text := by
            intro typeIs
            obtain ⟨leftIs, -⟩ := Prod.mk.inj valuesAre
            rw [leftIs, typeIs]
            exact exists_text_of_parsed runtime _ _ _ _
          exact (negated_compareValues runtime opposite isExists _ _ text given).returns returns negativeReturns
        · rintro ⟨typeIs, missing⟩
          have pair : (condition.operator.operation, negative.operation) ∈ (oppositeOperations .dateTime).tail := by
            simpa [oppositeOperations, isExists, typeIs] using opposite.operations
          have bothFalse := fun present => dateTimeOperation_of_missing runtime pair present missing
          simp only [compareValues, opposite.type, typeIs, (bothFalse _).1, (bothFalse _).2, Option.some_or,
            Option.getD_some] at returns negativeReturns
          exact ⟨(Except.ok.inj returns).symm, (Except.ok.inj negativeReturns).symm⟩

/-! ## Ignoring case -/

/-- The language's rules for texts that matter to the case of letters. -/
structure TextRules : Prop where
  /-- A text is lower-cased character by character. -/
  lowers : ∃ lower : Char → List Char, ∀ text, (runtime.toLocaleLowerCase text).toList = text.toList.flatMap lower
  strictEquals_text : ∀ text value, runtime.strictEquals (.string text) value = true ↔ value = .string text
  text_strictEquals : ∀ value text, runtime.strictEquals value (.string text) = true ↔ value = .string text
  toText_text : ∀ text, runtime.toText (.string text) = text

/-- An operator on texts that is no negation, or the search for a value in an array. -/
def Positive (operator : FilterOperatorValue) : Prop :=
  operator.type = .string ∧ operator.operation ∈ ["equals", "contains", "startsWith", "endsWith", "regex"] ∨
    operator.type = .array ∧ operator.operation = "contains"

/-- The parsed left value of a string operator as a text, `leftValue ?? ''`. -/
def JsValue.textOrEmpty : JsValue Number Date DateTime → String
  | .string text => text
  | _ => ""

/-- The left text matches a right value that keeps its case, and does not once it is lower-cased: a pattern,
or what the language makes of a value that is not a text. -/
def LostInLowerCase (operation text : String) (right : JsValue Number Date DateTime) : Prop :=
  let lowered := runtime.toLocaleLowerCase text
  let asText := (runtime.toText right).toList
  match operation with
  | "regex" => testPattern runtime right text = .ok true ∧ testPattern runtime right lowered ≠ .ok true
  | "contains" => right.typeof ≠ "string" ∧ asText <:+: text.toList ∧ ¬ asText <:+: lowered.toList
  | "startsWith" => right.typeof ≠ "string" ∧ asText <+: text.toList ∧ ¬ asText <+: lowered.toList
  | "endsWith" => right.typeof ≠ "string" ∧ asText <:+ text.toList ∧ ¬ asText <:+ lowered.toList
  | _ => False

variable {runtime}

theorem TextRules.lower_empty (rules : TextRules runtime) : runtime.toLocaleLowerCase "" = "" := by
  obtain ⟨lower, lowers⟩ := rules.lowers
  apply String.toList_inj.mp
  rw [lowers, String.toList_empty, List.flatMap_nil]

variable {part text : String}

theorem TextRules.contains_lower (rules : TextRules runtime) (contains : part.toList <:+: text.toList) :
    (runtime.toLocaleLowerCase part).toList <:+: (runtime.toLocaleLowerCase text).toList := by
  obtain ⟨lower, lowers⟩ := rules.lowers
  rw [lowers, lowers]
  exact contains.flatMap lower

theorem TextRules.startsWith_lower (rules : TextRules runtime) (startsWith : part.toList <+: text.toList) :
    (runtime.toLocaleLowerCase part).toList <+: (runtime.toLocaleLowerCase text).toList := by
  obtain ⟨lower, lowers⟩ := rules.lowers
  rw [lowers, lowers]
  exact startsWith.flatMap lower

theorem TextRules.endsWith_lower (rules : TextRules runtime) (endsWith : part.toList <:+ text.toList) :
    (runtime.toLocaleLowerCase part).toList <:+ (runtime.toLocaleLowerCase text).toList := by
  obtain ⟨lower, lowers⟩ := rules.lowers
  rw [lowers, lowers]
  exact endsWith.flatMap lower

theorem orElse_lowerIf (rules : TextRules runtime) (value : JsValue Number Date DateTime) :
    (value.lowerIf runtime true).orElse (.string "") = (value.orElse (.string "")).lowerIf runtime true := by
  cases value <;> simp [JsValue.lowerIf, JsValue.orElse, rules.lower_empty]

theorem TextRules.arrayContainsValue_widens (rules : TextRules runtime) {array : List (JsValue Number Date DateTime)}
    {value : JsValue Number Date DateTime} (contains : arrayContainsValue runtime array value false = true) :
    arrayContainsValue runtime array value true = true := by
  cases value with
  | string text =>
    obtain ⟨item, inArray, same⟩ : ∃ item ∈ array, runtime.strictEquals item (.string text) = true := by
      simpa [arrayContainsValue] using contains
    have itemIs := (rules.text_strictEquals item text).mp same
    subst itemIs
    simp only [arrayContainsValue, List.any_eq_true]
    exact ⟨.string text, inArray, by simp⟩
  | _ => exact contains

/-- The values of a string operator with and without regard to case. -/
theorem TextRules.stringOperation_widens_iff (rules : TextRules runtime) {operation : String}
    (positive : operation ∈ ["equals", "contains", "startsWith", "endsWith", "regex"]) (text : String)
    (right : JsValue Number Date DateTime) :
    (stringOperation runtime operation text right = some (.ok true) →
        stringOperation runtime operation (runtime.toLocaleLowerCase text)
          (if operation = "regex" ∨ operation = "notRegex" then right else right.lowerIf runtime true) =
            some (.ok true)) ↔
      ¬ LostInLowerCase runtime operation text right := by
  simp only [List.mem_cons, List.not_mem_nil, or_false] at positive
  rcases positive with rfl | rfl | rfl | rfl | rfl
  · have equalTexts : runtime.strictEquals (.string text) right = true →
        runtime.strictEquals (.string (runtime.toLocaleLowerCase text)) (right.lowerIf runtime true) = true := by
      intro same
      rw [(rules.strictEquals_text text right).mp same]
      exact (rules.strictEquals_text _ _).mpr rfl
    simpa [stringOperation, LostInLowerCase] using equalTexts
  · cases right with
    | string part =>
      simpa [stringOperation, LostInLowerCase, rules.toText_text, JsValue.lowerIf, JsValue.typeof] using
        rules.contains_lower
    | _ => simp [stringOperation, LostInLowerCase, JsValue.lowerIf, JsValue.typeof]
  · cases right with
    | string part =>
      simpa [stringOperation, LostInLowerCase, rules.toText_text, JsValue.lowerIf, JsValue.typeof] using
        rules.startsWith_lower
    | _ => simp [stringOperation, LostInLowerCase, JsValue.lowerIf, JsValue.typeof]
  · cases right with
    | string part =>
      simpa [stringOperation, LostInLowerCase, rules.toText_text, JsValue.lowerIf, JsValue.typeof] using
        rules.endsWith_lower
    | _ => simp [stringOperation, LostInLowerCase, JsValue.lowerIf, JsValue.typeof]
  · simp [stringOperation, LostInLowerCase]

/-- A parsed left value of a string operator: the operator works on it as a text. -/
theorem TextRules.left_eq (rules : TextRules runtime) (value : JsValue Number Date DateTime) (strict : Bool)
    (version : Nat) (ignoreCase : Bool) :
    let left := (parseSingleFilterValue runtime value .string strict version).newValue
    (left.lowerIf runtime ignoreCase).orElse (.string "") =
      .string (if ignoreCase then runtime.toLocaleLowerCase left.textOrEmpty else left.textOrEmpty) := by
  intro left
  obtain ⟨text, leftIs⟩ := exists_text_of_parsed runtime value strict version false
  have leftIs : left.orElse (.string "") = .string text := leftIs
  cases ignoreCase with
  | false =>
    cases found : left <;> simp_all [JsValue.lowerIf, JsValue.orElse, JsValue.textOrEmpty]
  | true =>
    rw [orElse_lowerIf rules, leftIs]
    cases found : left <;> simp_all [JsValue.lowerIf, JsValue.orElse, JsValue.textOrEmpty, rules.lower_empty]

/-- Ignoring case widens a match, except where the text only matches in upper case what keeps its case. -/
theorem executeFilterCondition_widens_iff (rules : TextRules runtime)
    (condition : FilterConditionValue Number Date DateTime) (options : FilterOptionsValue)
    (metadata : FilterConditionMetadata) (positive : Positive condition.operator) :
    (executeFilterCondition runtime condition { options with caseSensitive := true } metadata = .ok true →
        executeFilterCondition runtime condition { options with caseSensitive := false } metadata = .ok true) ↔
      ∀ left right, parseFilterConditionValues runtime condition options metadata = .ok (left, right) →
        condition.operator.type = .string →
          ¬ LostInLowerCase runtime condition.operator.operation left.textOrEmpty (right.orElse (.string "")) := by
  have sameParse : ∀ caseSensitive,
      parseFilterConditionValues runtime condition { options with caseSensitive := caseSensitive } metadata =
        parseFilterConditionValues runtime condition options metadata := fun _ => rfl
  have plain : condition.operator.operation ≠ "exists" ∧ condition.operator.operation ≠ "notExists" := by
    rcases positive with ⟨-, positive⟩ | ⟨-, positive⟩
    · constructor <;> intro isExists <;> simp [isExists] at positive
    · simp [positive]
  simp only [executeFilterCondition, sameParse]
  cases parsed : parseFilterConditionValues runtime condition options metadata with
  | error error => simp
  | ok values =>
    obtain ⟨leftIs, -⟩ := Prod.mk.inj (parseFilterConditionValues_eq runtime parsed)
    obtain ⟨left, right⟩ := values
    dsimp only at leftIs ⊢
    rw [if_neg plain.1, if_neg plain.2, if_neg plain.1, if_neg plain.2]
    rcases positive with ⟨typeIs, positive⟩ | ⟨typeIs, positive⟩
    · have parsedFor := rules.left_eq condition.leftValue options.strict (options.version.getD 1)
      rw [typeIs] at leftIs
      rw [← leftIs] at parsedFor
      have rightIs : (if condition.operator.operation = "regex" ∨ condition.operator.operation = "notRegex" then right
            else right.lowerIf runtime true).orElse (.string "") =
          if condition.operator.operation = "regex" ∨ condition.operator.operation = "notRegex" then
            right.orElse (.string "") else (right.orElse (.string "")).lowerIf runtime true := by
        split
        · rfl
        · exact orElse_lowerIf rules right
      have unfolded : ∀ ignoreCase present, compareValues runtime condition.operator ignoreCase present left right =
          stringOperation runtime condition.operator.operation
            (if ignoreCase then runtime.toLocaleLowerCase left.textOrEmpty else left.textOrEmpty)
            ((if condition.operator.operation = "regex" ∨ condition.operator.operation = "notRegex" then right
              else right.lowerIf runtime ignoreCase).orElse (.string "")) := by
        intro ignoreCase present
        simp only [compareValues, typeIs, parsedFor ignoreCase]
      have unlowered : (if condition.operator.operation = "regex" ∨ condition.operator.operation = "notRegex" then
          right else right.lowerIf runtime false) = right := by
        cases right <;> exact ite_self _
      rw [unfolded, unfolded, getD_eq_ok_true, getD_eq_ok_true, Bool.not_true, Bool.not_false, unlowered, rightIs]
      simpa [typeIs] using rules.stringOperation_widens_iff positive left.textOrEmpty (right.orElse (.string ""))
    · have contains : ∀ items, arrayContainsValue runtime items right false = true →
          arrayContainsValue runtime items right true = true := fun _ => rules.arrayContainsValue_widens
      simp only [compareValues, typeIs, positive, arrayOperation, Option.some_or, Option.getD_some, reduceCtorEq,
        false_implies, implies_true, iff_true, Bool.not_true, Bool.not_false]
      cases left.orElse (.array []) with
      | array items => simpa using contains items
      | _ => simp

end

/-! A comparison with a missing time, and a pattern of capital letters. -/

namespace CapitalLetters

/-- A number is missing where it is NaN; a pattern without flags stands for itself. -/
def runtime : Runtime (Option Nat) Unit Nat where
  isNaN number := number.isNone
  ofNat := some
  toNumber
    | .number number => number
    | .boolean value => some (if value then 1 else 0)
    | .null => some 0
    | _ => none
  toText
    | .string text => text
    | .undefined => "undefined"
    | .null => "null"
    | _ => "[object Object]"
  isTruthy
    | .string text => text != ""
    | .undefined | .null => false
    | .number number => number.isSome && number != some 0
    | .boolean value => value
    | _ => true
  strictEquals
    | .string first, .string second => first == second
    | .undefined, .undefined | .null, .null => true
    | .boolean first, .boolean second => first == second
    | .number (some first), .number (some second) => first == second
    | _, _ => false
  less _ _ := false
  lessOrEqual _ _ := false
  stringify
    | .string text => "\"" ++ text ++ "\""
    | _ => "null"
  jsonParse _ := none
  parseJSObject _ := none
  doubleQuotes text := text
  trim text := text
  toLowerCase text := String.ofList (text.toList.map Char.toLower)
  toLocaleLowerCase text := String.ofList (text.toList.map Char.toLower)
  fromJSDate _ := 0
  fromISO text := if text = "2023-11-15T17:10:49.113Z" then 1700068249113 else 0
  fromHTTP _ := 0
  fromRFC2822 _ := 0
  fromSQL _ := 0
  fromParsedMillis _ := 0
  isValid time := time != 0
  toMillis
    | .dateTime time => some (some time)
    | _ => none
  regexTest source flags text := if flags = "" then some (source.toList <:+: text.toList) else none

def options : FilterOptionsValue := { caseSensitive := true, leftValue := "", strict := true, version := some 2 }

/-- A missing time against a time. -/
def times : FilterConditionValue (Option Nat) Unit Nat where
  id := "1"
  leftValue := .null
  operator := { type := .dateTime, operation := "equals" }
  rightValue := .string "2023-11-15T17:10:49.113Z"

def capitals (operation : String) : FilterConditionValue (Option Nat) Unit Nat where
  id := "2"
  leftValue := .string "ABC"
  operator := { type := .string, operation := operation }
  rightValue := .string "ABC"

theorem rules : TextRules runtime where
  lowers := ⟨fun char => [char.toLower], fun _ => String.toList_ofList.trans List.map_eq_flatMap⟩
  strictEquals_text text value := by
    cases value with
    | string second =>
      rw [JsValue.string.injEq, @eq_comm _ second]
      exact beq_iff_eq
    | _ => simp [runtime]
  text_strictEquals value text := by
    cases value with
    | string first => simp [runtime]
    | number number => cases number <;> simp [runtime]
    | _ => simp [runtime]
  toText_text _ := rfl

def notEquals : FilterOperatorValue := { type := .dateTime, operation := "notEquals" }

def notContains : FilterOperatorValue := { type := .string, operation := "notContains" }

/-- With a missing time both operators of a pair return false. -/
theorem notEquals_not_negation :
    Opposite times.operator notEquals ∧ executeFilterCondition runtime times options {} = .ok false ∧
      executeFilterCondition runtime { times with operator := notEquals } options {} = .ok false :=
  ⟨⟨rfl, rfl, by decide⟩, rfl, rfl⟩

theorem contains_returns : executeFilterCondition runtime (capitals "contains") options {} = .ok true := rfl

theorem notContains_returns :
    executeFilterCondition runtime { capitals "contains" with operator := notContains } options {} = .ok false := rfl

theorem notContains_is_negation :
    Opposite (capitals "contains").operator notContains ∧
      (¬ ComparesMissingTimes runtime (capitals "contains") options {} → false = !true) ∧
        (ComparesMissingTimes runtime (capitals "contains") options {} → true = false ∧ false = false) := by
  have opposite : Opposite (capitals "contains").operator notContains := ⟨rfl, rfl, by decide⟩
  exact ⟨opposite, executeFilterCondition_opposite runtime _ _ _ _ opposite contains_returns notContains_returns⟩

/-- The text is lower-cased for a pattern that keeps its capital letters. -/
theorem regex_not_widened :
    executeFilterCondition runtime (capitals "regex") options {} = .ok true ∧
      executeFilterCondition runtime (capitals "regex") { options with caseSensitive := false } {} = .ok false :=
  ⟨rfl, rfl⟩

theorem contains_widened :
    executeFilterCondition runtime (capitals "contains") { options with caseSensitive := false } {} = .ok true := by
  apply (executeFilterCondition_widens_iff rules (capitals "contains") options {}
    (.inl ⟨rfl, by simp [capitals]⟩)).mpr _ contains_returns
  intro left right parses _
  cases parses
  rintro ⟨noText, _⟩
  exact noText rfl

end CapitalLetters

end N8n.NodeParameters
