import N8n.Library.PlainData
import N8n.Workflow.Interfaces

/-! # Redacted credentials

`redact` and `unredact` in `packages/cli/src/credentials/credentials.service.ts`.
Before credential data leaves the server its secrets are replaced by sentinels,
and when it comes back the sentinels are replaced by the saved values.
-/

namespace N8n.Credentials

open PlainData

/-- A property of a credential type.  `options` are the properties inside a collection; a fixed collection has one for
each of its groups, with the properties of the group inside. -/
inductive CredentialProperty where
  | mk (name : String) (password noDataExpression doNotInherit : Bool) (options : List CredentialProperty)

namespace CredentialProperty

def name : CredentialProperty → String
  | mk name _ _ _ _ => name

def password : CredentialProperty → Bool
  | mk _ password _ _ _ => password

def noDataExpression : CredentialProperty → Bool
  | mk _ _ noDataExpression _ _ => noDataExpression

def doNotInherit : CredentialProperty → Bool
  | mk _ _ _ doNotInherit _ => doNotInherit

def options : CredentialProperty → List CredentialProperty
  | mk _ _ _ _ options => options

end CredentialProperty

/-- A credential type; the types that it extends stand for their names. -/
inductive ICredentialType where
  | mk (parentTypes : List ICredentialType) (properties : List CredentialProperty)

/-! ## The properties of a type -/

def overwriteProperty (mainProperties : List CredentialProperty) (property : CredentialProperty) :
    List CredentialProperty :=
  match mainProperties.findIdx? (·.name = property.name) with
  | none => mainProperties ++ [property]
  | some existingIndex => mainProperties.set existingIndex property

def mergeNodeProperties (mainProperties addProperties : List CredentialProperty) : List CredentialProperty :=
  addProperties.foldl (fun mainProperties property =>
    if property.doNotInherit then mainProperties else overwriteProperty mainProperties property) mainProperties

mutual

def getExtendedProps : ICredentialType → List CredentialProperty
  | .mk parentTypes properties => mergeNodeProperties (getParentProps [] parentTypes) properties

def getParentProps (props : List CredentialProperty) : List ICredentialType → List CredentialProperty
  | [] => props
  | extendsType :: rest => getParentProps (mergeNodeProperties props (getExtendedProps extendsType)) rest

end

/-- The properties that a type has: all of its own, and those it inherits from its parents. -/
def ICredentialType.properties : ICredentialType → List CredentialProperty
  | .mk parentTypes properties => properties.foldl overwriteProperty (getParentProps [] parentTypes)

/-! ## Redaction -/

variable {ν : Type}

/-- An object as the map of its fields. -/
abbrev ICredentialDataDecryptedObject (ν : Type) := Properties (PlainData ν)

def credentialBlankingValue : String := "__n8n_BLANK_VALUE_e5362baf-c777-4d57-a609-6eaf1f9e87f6"

def credentialEmptyValue : String := "__n8n_EMPTY_VALUE_7b1af746-3729-4c60-9b9b-e08eb29e58da"

def isExpression (text : String) : Bool := text.toList.take 3 = ['=', '{', '{']

def zeroKey : Key := ⟨"0", by decide⟩

mutual

/-- `value.toString().length = 0`; an array joins its elements with commas. -/
def isEmptyText : PlainData ν → Bool
  | .primitive (.string text) => text = ""
  | .primitive _ => false
  | .object _ => false
  | .array ⟨length, elements⟩ => length = 0 || (length = 1 && joinsEmpty (elements zeroKey))
termination_by structural value => value

/-- The only element of an array whose text is empty. -/
def joinsEmpty : Option (PlainData ν) → Bool
  | none => true
  | some (.primitive .undefined) | some (.primitive .null) => true
  | some value => isEmptyText value
termination_by structural value => value

end

/-- The sentinel for a value. -/
def blank : PlainData ν → Except Thrown (PlainData ν)
  | .primitive .undefined => .error (.typeError "Cannot read properties of undefined (reading 'toString')")
  | .primitive .null => .error (.typeError "Cannot read properties of null (reading 'toString')")
  | value =>
    .ok (.primitive (.string (if isEmptyText value then credentialEmptyValue else credentialBlankingValue)))

/-- One turn of the loop over the fields. -/
def redactField (type : ICredentialType) (dataKey : Key) (value : PlainData ν) : Except Thrown (PlainData ν) :=
  if dataKey.val = "oauthTokenData" ∨ dataKey.val = "csrfSecret" then
    blank value
  else
    match (getExtendedProps type).find? (·.name = dataKey.val) with
    | none => .ok value
    | some prop =>
      if prop.password then
        match value with
        | .primitive (.string text) =>
          if !isExpression text || prop.noDataExpression then blank value else .ok value
        | _ => .error (.typeError "copiedData[dataKey].startsWith is not a function")
      else
        .ok value

/-- The call throws when a field throws, and otherwise returns the object of the fields. -/
def redact (type : ICredentialType) (data : ICredentialDataDecryptedObject ν) :
    Properties (Except Thrown (PlainData ν)) :=
  fun dataKey => (data dataKey).map (redactField type dataKey)

/-! ## Restoring -/

def isSentinel (text : String) : Bool := text = credentialBlankingValue || text = credentialEmptyValue

section

variable (numbers : NumberSystem ν)

mutual

/-- A field of the object that is restored, beside the field of the same key in `replacement`. -/
def restoreValue (saved : PlainData ν) : PlainData ν → PlainData ν
  | .primitive (.string text) => if isSentinel text then saved else .primitive (.string text)
  | .primitive value => .primitive value
  | .object properties =>
    if saved.isPrimitive then
      .object properties
    else
      .object fun key => restoreEntry (saved.get numbers key) (properties key)
  | .array ⟨length, elements⟩ =>
    if saved.isPrimitive then
      .array ⟨length, elements⟩
    else
      -- the length is not among the entries of an array
      .array ⟨length, fun key =>
        if key = lengthKey then elements key else restoreEntry (saved.get numbers key) (elements key)⟩
termination_by structural value => value

def restoreEntry (saved : PlainData ν) : Option (PlainData ν) → Option (PlainData ν)
  | none => none
  | some value => some (restoreValue saved value)
termination_by structural value => value

end

def unredactRestoreValues (unmerged replacement : Properties (PlainData ν)) : Properties (PlainData ν) :=
  fun key => restoreEntry numbers ((replacement key).getD undefined) (unmerged key)

def unredact (redactedData savedData : ICredentialDataDecryptedObject ν) : ICredentialDataDecryptedObject ν :=
  unredactRestoreValues numbers redactedData savedData

end

/-! ## What is to be restored -/

def fields : PlainData ν → Key → Option (PlainData ν)
  | .primitive _, _ => none
  | .object properties, key => properties key
  | .array contents, key => if key = lengthKey then none else contents.elements key

section

variable (numbers : NumberSystem ν)

mutual

/-- The value with the saved value of the same path in place of each sentinel. -/
def withSaved (saved : PlainData ν) : PlainData ν → PlainData ν
  | .primitive (.string text) => if isSentinel text then saved else .primitive (.string text)
  | .primitive value => .primitive value
  | .object properties => .object fun key => withSavedEntry (saved.get numbers key) (properties key)
  | .array ⟨length, elements⟩ => .array ⟨length, fun key =>
      if key = lengthKey then elements key else withSavedEntry (saved.get numbers key) (elements key)⟩
termination_by structural value => value

def withSavedEntry (saved : PlainData ν) : Option (PlainData ν) → Option (PlainData ν)
  | none => none
  | some value => some (withSaved saved value)
termination_by structural value => value

end

/-- A sentinel is in an object or array where the saved data has neither. -/
inductive Misplaced : PlainData ν → PlainData ν → Prop where
  | sentinel {saved value : PlainData ν} {key : Key} {text : String} (noPlace : saved.isPrimitive = true)
      (field : fields value key = some (.primitive (.string text))) (isSentinel : isSentinel text = true) :
      Misplaced saved value
  | within {saved value child : PlainData ν} {key : Key} (field : fields value key = some child)
      (misplaced : Misplaced (saved.get numbers key) child) : Misplaced saved value

variable {numbers}

theorem get_of_isPrimitive {saved : PlainData ν} (isPrimitive : saved.isPrimitive = true) (key : Key) :
    saved.get numbers key = undefined := by
  cases saved with
  | primitive value => rfl
  | object properties => cases isPrimitive
  | array contents => cases isPrimitive

theorem restoreValue_of_isPrimitive {saved : PlainData ν} (isPrimitive : saved.isPrimitive = true)
    (value : PlainData ν) :
    (∃ text, value = .primitive (.string text) ∧ isSentinel text = true) ∨
      restoreValue numbers saved value = value := by
  match value with
  | .primitive (.string text) =>
    by_cases sentinel : isSentinel text = true
    · exact Or.inl ⟨text, rfl, sentinel⟩
    · exact Or.inr (by simp [restoreValue, sentinel])
  | .primitive .undefined | .primitive .null | .primitive (.boolean _) | .primitive (.number _) => exact Or.inr rfl
  | .object properties => exact Or.inr (by simp [restoreValue, isPrimitive])
  | .array ⟨length, elements⟩ => exact Or.inr (by simp [restoreValue, isPrimitive])

theorem restoreValue_self : ∀ value : PlainData ν, restoreValue numbers value value = value := by
  apply nestedInduction
  · intro value
    match value with
    | .string text => simp [restoreValue]
    | .undefined | .null | .boolean _ | .number _ => rfl
  · intro properties children
    simp only [restoreValue, isPrimitive, Bool.false_eq_true, if_false]
    congr 1
    funext key
    cases found : properties key with
    | none => rfl
    | some child => simp [restoreEntry, PlainData.get, found, children key child found]
  · intro length elements children
    simp only [restoreValue, isPrimitive, Bool.false_eq_true, if_false]
    congr 2
    funext key
    split
    · rfl
    next notLength =>
      cases found : elements key with
      | none => rfl
      | some child => simp [restoreEntry, PlainData.get, found, notLength, children key child found]

theorem not_misplaced_iff {saved value : PlainData ν} :
    ¬ Misplaced numbers saved value ↔ ∀ key child, fields value key = some child →
      (saved.isPrimitive = true → ∀ text, child = .primitive (.string text) → isSentinel text = false) ∧
        ¬ Misplaced numbers (saved.get numbers key) child := by
  constructor
  · intro placed key child field
    constructor
    · rintro noPlace text rfl
      by_contra sentinel
      exact placed (.sentinel noPlace field (by simpa using sentinel))
    · intro misplaced
      exact placed (.within field misplaced)
  · intro placed misplaced
    cases misplaced with
    | sentinel noPlace field isSentinel =>
      have notSentinel := (placed _ _ field).1 noPlace _ rfl
      rw [isSentinel] at notSentinel
      cases notSentinel
    | within field misplaced => exact (placed _ _ field).2 misplaced

def FieldRestored (numbers : NumberSystem ν) (saved : PlainData ν) (key : Key) (child : PlainData ν) : Prop :=
  (if saved.isPrimitive then child else restoreValue numbers (saved.get numbers key) child) =
    withSaved numbers (saved.get numbers key) child

theorem restoreValue_eq_iff_fields (value saved : PlainData ν) :
    restoreValue numbers saved value = withSaved numbers saved value ↔
      ∀ key child, fields value key = some child → FieldRestored numbers saved key child := by
  have entries : ∀ (key : Key) (entry : Option (PlainData ν)),
      (if saved.isPrimitive then entry else restoreEntry numbers (saved.get numbers key) entry) =
          withSavedEntry numbers (saved.get numbers key) entry ↔
        ∀ child, entry = some child → FieldRestored numbers saved key child := by
    intro key entry
    cases entry with
    | none => simp [restoreEntry, withSavedEntry]
    | some child =>
      unfold FieldRestored
      split <;> simp [restoreEntry, withSavedEntry]
  match value with
  | .primitive (.string text) => simp [restoreValue, withSaved, fields]
  | .primitive .undefined | .primitive .null | .primitive (.boolean _) | .primitive (.number _) =>
    simp [restoreValue, withSaved, fields]
  | .object properties =>
    simp only [fields, ← entries, restoreValue, withSaved]
    split <;> simp [funext_iff]
  | .array ⟨length, elements⟩ =>
    have notLength : (∀ key child, fields (.array ⟨length, elements⟩) key = some child →
          FieldRestored numbers saved key child) ↔
        ∀ key, key ≠ lengthKey →
          (if saved.isPrimitive then elements key else restoreEntry numbers (saved.get numbers key) (elements key)) =
            withSavedEntry numbers (saved.get numbers key) (elements key) := by
      refine forall_congr' fun key => ?_
      rw [entries]
      by_cases isLength : key = lengthKey
      · simp [fields, isLength]
      · simp [fields, isLength]
    rw [notLength]
    simp only [restoreValue, withSaved]
    split
    · simp only [PlainData.array.injEq, ArrayContents.mk.injEq, true_and, funext_iff]
      refine forall_congr' fun key => ?_
      by_cases isLength : key = lengthKey <;> simp [isLength]
    · simp only [PlainData.array.injEq, ArrayContents.mk.injEq, true_and, funext_iff]
      refine forall_congr' fun key => ?_
      by_cases isLength : key = lengthKey <;> simp [isLength]

/-- Nothing is restored below a primitive, which is right when nothing has to be. -/
theorem fieldRestored_iff {saved child : PlainData ν} {key : Key}
    (ih : ∀ saved, restoreValue numbers saved child = withSaved numbers saved child ↔
      ¬ Misplaced numbers saved child) :
    FieldRestored numbers saved key child ↔
      (saved.isPrimitive = true → ∀ text, child = .primitive (.string text) → isSentinel text = false) ∧
        ¬ Misplaced numbers (saved.get numbers key) child := by
  unfold FieldRestored
  split
  next noPlace =>
    rw [get_of_isPrimitive noPlace, ← ih]
    rcases @restoreValue_of_isPrimitive _ numbers undefined rfl child with ⟨text, rfl, sentinel⟩ | unchanged
    · simp [withSaved, noPlace, sentinel, undefined]
    · rw [unchanged]
      refine ⟨fun restored => ⟨?_, restored⟩, fun both => both.2⟩
      rintro _ text rfl
      by_contra sentinel
      simp [restoreValue, sentinel, undefined] at unchanged
  next place => simp [ih, place]

/-- Restoring gives each sentinel the saved value just when none is misplaced. -/
theorem restoreValue_eq_iff : ∀ value saved : PlainData ν,
    restoreValue numbers saved value = withSaved numbers saved value ↔ ¬ Misplaced numbers saved value := by
  have step : ∀ value : PlainData ν, (∀ key child, fields value key = some child → ∀ saved,
      restoreValue numbers saved child = withSaved numbers saved child ↔ ¬ Misplaced numbers saved child) →
      ∀ saved, restoreValue numbers saved value = withSaved numbers saved value ↔ ¬ Misplaced numbers saved value := by
    intro value children saved
    rw [restoreValue_eq_iff_fields, not_misplaced_iff]
    refine forall_congr' fun key => forall_congr' fun child => ?_
    exact forall_congr' fun field => fieldRestored_iff (children key child field)
  apply nestedInduction
  · intro value
    exact step _ fun key child field => by cases field
  · intro properties children
    exact step _ children
  · intro length elements children
    refine step _ fun key child field => ?_
    simp only [fields] at field
    split at field
    · cases field
    · exact children key child field

/-- The data with the saved value of the same path in place of each sentinel. -/
def restored (numbers : NumberSystem ν) (edited saved : ICredentialDataDecryptedObject ν) :
    ICredentialDataDecryptedObject ν :=
  fun key => withSavedEntry numbers ((saved key).getD undefined) (edited key)

theorem unredact_eq_iff (edited saved : ICredentialDataDecryptedObject ν) :
    unredact numbers edited saved = restored numbers edited saved ↔
      ¬ Misplaced numbers (.object saved) (.object edited) := by
  rw [← restoreValue_eq_iff]
  simp only [restoreValue, withSaved, isPrimitive, Bool.false_eq_true, if_false, PlainData.object.injEq]
  exact Iff.rfl

end

/-! ## What is to be hidden -/

/-- A text that the password property does not take for an expression. -/
def IsSecret (property : CredentialProperty) (value : PlainData ν) : Prop :=
  ∃ text, value = .primitive (.string text) ∧ text ≠ "" ∧
    (isExpression text = false ∨ property.noDataExpression = true)

mutual

/-- The collections differ only in password properties. -/
inductive DifferInPasswords : List CredentialProperty → PlainData ν → PlainData ν → Prop where
  | object {properties : List CredentialProperty} {first second : Properties (PlainData ν)}
      (sameKeys : ∀ key, (first key).isSome = (second key).isSome)
      (fields : ∀ key value value', first key = some value → second key = some value' →
        FieldsDifferInPasswords properties key value value') :
      DifferInPasswords properties (.object first) (.object second)
  /-- A collection with multiple values. -/
  | array {properties : List CredentialProperty} {first second : ArrayContents (PlainData ν)}
      (sameLength : first.length = second.length)
      (sameKeys : ∀ key, (first.elements key).isSome = (second.elements key).isSome)
      (elements : ∀ key value value', first.elements key = some value → second.elements key = some value' →
        DifferInPasswords properties value value') :
      DifferInPasswords properties (.array first) (.array second)

/-- The values of a field are equal, secrets of a password property, or collections of another property. -/
inductive FieldsDifferInPasswords : List CredentialProperty → Key → PlainData ν → PlainData ν → Prop where
  | equal {properties : List CredentialProperty} {key : Key} (value : PlainData ν) :
      FieldsDifferInPasswords properties key value value
  | password {properties : List CredentialProperty} {key : Key} {value value' : PlainData ν}
      {property : CredentialProperty} (member : property ∈ properties) (named : property.name = key.val)
      (password : property.password = true) (secret : IsSecret property value) (secret' : IsSecret property value') :
      FieldsDifferInPasswords properties key value value'
  | collection {properties : List CredentialProperty} {key : Key} {value value' : PlainData ν}
      {property : CredentialProperty} (member : property ∈ properties) (named : property.name = key.val)
      (inside : DifferInPasswords property.options value value') :
      FieldsDifferInPasswords properties key value value'

end

def isTokenKey (dataKey : Key) : Bool := dataKey.val = "oauthTokenData" || dataKey.val = "csrfSecret"

def NotEmpty (value : PlainData ν) : Prop :=
  value ≠ .primitive .undefined ∧ value ≠ .primitive .null ∧ isEmptyText value = false

structure SameButSecrets (type : ICredentialType) (first second : ICredentialDataDecryptedObject ν) : Prop where
  sameKeys : ∀ key, (first key).isSome = (second key).isSome
  tokens : ∀ key value value', first key = some value → second key = some value' → isTokenKey key = true →
    value = value' ∨ (NotEmpty value ∧ NotEmpty value')
  others : ∀ key value value', first key = some value → second key = some value' → isTokenKey key = false →
    FieldsDifferInPasswords type.properties key value value'

def PasswordsAreStrings (type : ICredentialType) (data : ICredentialDataDecryptedObject ν) : Prop :=
  ∀ key value property, data key = some value →
    (getExtendedProps type).find? (·.name = key.val) = some property → property.password = true →
    ∃ text, value = .primitive (.string text)

/-- The field is one of the two tokens, or the merged list has a password property for it and it is no expression. -/
def IsHidden (type : ICredentialType) (dataKey : Key) (value : PlainData ν) : Prop :=
  isTokenKey dataKey = true ∨
    ∃ property text, (getExtendedProps type).find? (·.name = dataKey.val) = some property ∧
      property.password = true ∧ value = .primitive (.string text) ∧
      (isExpression text = false ∨ property.noDataExpression = true)

/-- The data differ in no field but hidden ones, so in particular in none inside a collection. -/
def DifferInHidden (type : ICredentialType) (first second : ICredentialDataDecryptedObject ν) : Prop :=
  ∀ key value value', first key = some value → second key = some value' → value ≠ value' →
    IsHidden type key value ∧ IsHidden type key value'

/-! ## Redaction field by field -/

theorem blank_of_notEmpty {value : PlainData ν} (notEmpty : NotEmpty value) :
    blank value = .ok (.primitive (.string credentialBlankingValue)) := by
  obtain ⟨notUndefined, notNull, text⟩ := notEmpty
  match value with
  | .primitive .undefined => exact absurd rfl notUndefined
  | .primitive .null => exact absurd rfl notNull
  | .primitive (.boolean _) | .primitive (.number _) | .object _ => rfl
  | .primitive (.string _) | .array _ => simp only [blank, text]; rfl

variable {dataKey : Key} {type : ICredentialType}

theorem redactField_token (isToken : isTokenKey dataKey = true) (value : PlainData ν) :
    redactField type dataKey value = blank value := by
  have either : dataKey.val = "oauthTokenData" ∨ dataKey.val = "csrfSecret" := by simpa [isTokenKey] using isToken
  rw [redactField, if_pos either]

section Field

variable {type : ICredentialType} {dataKey : Key} (notToken : isTokenKey dataKey = false)

include notToken

theorem redactField_notToken (value : PlainData ν) :
    redactField type dataKey value =
      match (getExtendedProps type).find? (·.name = dataKey.val) with
      | none => .ok value
      | some prop =>
        if prop.password then
          match value with
          | .primitive (.string text) =>
            if !isExpression text || prop.noDataExpression then blank value else .ok value
          | _ => .error (.typeError "copiedData[dataKey].startsWith is not a function")
        else
          .ok value := by
  have neither : ¬ (dataKey.val = "oauthTokenData" ∨ dataKey.val = "csrfSecret") := by simpa [isTokenKey] using notToken
  rw [redactField, if_neg neither]

theorem redactField_of_not_password
    (notPassword : ∀ property, (getExtendedProps type).find? (·.name = dataKey.val) = some property →
      property.password = false) (value : PlainData ν) :
    redactField type dataKey value = .ok value ∧ ¬ IsHidden type dataKey value := by
  constructor
  · rw [redactField_notToken notToken]
    split
    · rfl
    next property found =>
      rw [if_neg]
      simp [notPassword property found]
  · rintro (isToken | ⟨property, _, found, password, _⟩)
    · rw [notToken] at isToken
      cases isToken
    · rw [notPassword property found] at password
      cases password

theorem redactField_of_password {property : CredentialProperty}
    (found : (getExtendedProps type).find? (·.name = dataKey.val) = some property)
    (password : property.password = true) {text : String} (notEmpty : text ≠ "") :
    (IsHidden type dataKey (.primitive (.string text) : PlainData ν) ↔
        (isExpression text = false ∨ property.noDataExpression = true)) ∧
      redactField type dataKey (.primitive (.string text) : PlainData ν) =
        if isExpression text = false ∨ property.noDataExpression = true then
          .ok (.primitive (.string credentialBlankingValue))
        else
          .ok (.primitive (.string text)) := by
  constructor
  · constructor
    · rintro (isToken | ⟨property', text', found', _, isText, hidden⟩)
      · rw [notToken] at isToken
        cases isToken
      · obtain rfl : property = property' := Option.some.inj (found.symm.trans found')
        cases isText
        exact hidden
    · intro hidden
      exact Or.inr ⟨property, text, found, password, rfl, hidden⟩
  · rw [redactField_notToken notToken, found]
    simp only [password, if_true, Bool.or_eq_true, Bool.not_eq_true']
    split
    next => exact blank_of_notEmpty ⟨nofun, nofun, by simpa [isEmptyText] using notEmpty⟩
    next => rfl

end Field

theorem not_isExpression_blanking : isExpression credentialBlankingValue = false := by decide

theorem redactField_secret_iff (notToken : isTokenKey dataKey = false) {text text' : String}
    (notEmpty : text ≠ "") (notEmpty' : text' ≠ "") :
    redactField type dataKey (.primitive (.string text) : PlainData ν) =
        redactField type dataKey (.primitive (.string text')) ↔
      ((.primitive (.string text) : PlainData ν) ≠ .primitive (.string text') →
        IsHidden type dataKey (.primitive (.string text) : PlainData ν) ∧
          IsHidden type dataKey (.primitive (.string text') : PlainData ν)) := by
  by_cases isPassword : ∃ property, (getExtendedProps type).find? (·.name = dataKey.val) = some property ∧
      property.password = true
  · obtain ⟨property, found, password⟩ := isPassword
    obtain ⟨hidden, redacted⟩ := @redactField_of_password ν _ _ notToken _ found password _ notEmpty
    obtain ⟨hidden', redacted'⟩ := @redactField_of_password ν _ _ notToken _ found password _ notEmpty'
    rw [hidden, hidden', redacted, redacted']
    have notBlanking : ∀ {other : String}, ¬ (isExpression other = false ∨ property.noDataExpression = true) →
        other ≠ credentialBlankingValue := by
      rintro other expression rfl
      exact expression (Or.inl not_isExpression_blanking)
    split
    next first =>
      split
      next second => simp [first, second]
      next second =>
        have different : text ≠ text' := by
          rintro rfl
          exact second first
        simp [second, different, Ne.symm (notBlanking second)]
    next first =>
      split
      next second =>
        have different : text ≠ text' := by
          rintro rfl
          exact first second
        simp [first, different, notBlanking first]
      next second => simp [first]
  · have notPassword : ∀ property, (getExtendedProps type).find? (·.name = dataKey.val) = some property →
        property.password = false := by
      intro property found
      by_contra password
      exact isPassword ⟨property, found, by simpa using password⟩
    obtain ⟨redacted, visible⟩ := redactField_of_not_password notToken notPassword
      (.primitive (.string text) : PlainData ν)
    obtain ⟨redacted', _⟩ := redactField_of_not_password notToken notPassword
      (.primitive (.string text') : PlainData ν)
    simp [redacted, redacted', visible]

theorem redactField_eq_iff {first second : ICredentialDataDecryptedObject ν}
    (same : SameButSecrets type first second) (strings : PasswordsAreStrings type first) {value value' : PlainData ν}
    (field : first dataKey = some value) (field' : second dataKey = some value') :
    redactField type dataKey value = redactField type dataKey value' ↔
      (value ≠ value' → IsHidden type dataKey value ∧ IsHidden type dataKey value') := by
  cases isToken : isTokenKey dataKey with
  | true =>
    rw [redactField_token isToken, redactField_token isToken]
    refine iff_of_true ?_ fun _ => ⟨Or.inl isToken, Or.inl isToken⟩
    rcases same.tokens dataKey value value' field field' isToken with rfl | ⟨notEmpty, notEmpty'⟩
    · rfl
    · rw [blank_of_notEmpty notEmpty, blank_of_notEmpty notEmpty']
  | false =>
    cases same.others dataKey value value' field field' isToken with
    | equal => simp
    | password _ _ _ secret secret' =>
      obtain ⟨text, rfl, notEmpty, _⟩ := secret
      obtain ⟨text', rfl, notEmpty', _⟩ := secret'
      exact redactField_secret_iff isToken notEmpty notEmpty'
    | collection _ _ inside =>
      -- the value of a collection is no text, so that its property in the merged list is no password
      have notPassword : ∀ property, (getExtendedProps type).find? (·.name = dataKey.val) = some property →
          property.password = false := by
        intro property found
        by_contra password
        obtain ⟨text, rfl⟩ := strings dataKey value property field found (by simpa using password)
        cases inside
      obtain ⟨redacted, visible⟩ := redactField_of_not_password isToken notPassword value
      obtain ⟨redacted', _⟩ := redactField_of_not_password isToken notPassword value'
      simp [redacted, redacted', visible]

theorem redact_eq_iff {first second : ICredentialDataDecryptedObject ν}
    (same : SameButSecrets type first second) (strings : PasswordsAreStrings type first) :
    redact type first = redact type second ↔ DifferInHidden type first second := by
  constructor
  · intro equal key value value' field field'
    have fields := congrFun equal key
    simp only [redact, field, field', Option.map_some, Option.some.injEq] at fields
    exact (redactField_eq_iff same strings field field').mp fields
  · intro hidden
    funext key
    simp only [redact]
    cases field : first key with
    | none =>
      have sameKeys := same.sameKeys key
      rw [field, Option.isSome_none] at sameKeys
      have isNone : second key = none := by simpa using sameKeys.symm
      rw [isNone]
    | some value =>
      have isSome := same.sameKeys key
      rw [field, Option.isSome_some] at isSome
      obtain ⟨value', field'⟩ := Option.isSome_iff_exists.mp isSome.symm
      rw [field', Option.map_some, Option.map_some]
      exact congrArg some ((redactField_eq_iff same strings field field').mpr (hidden key value value' field field'))

theorem redactField_cases {value result : PlainData ν}
    (returns : redactField type dataKey value = .ok result) :
    result = value ∨ ∃ text, result = .primitive (.string text) ∧ isSentinel text = true := by
  have ofBlank : blank value = .ok result → ∃ text, result = .primitive (.string text) ∧ isSentinel text = true := by
    intro returns
    unfold blank at returns
    split at returns
    · cases returns
    · cases returns
    · cases returns
      refine ⟨_, rfl, ?_⟩
      split <;> simp [isSentinel]
  unfold redactField at returns
  split at returns
  · exact Or.inr (ofBlank returns)
  · split at returns
    · cases returns
      exact Or.inl rfl
    · split at returns
      · split at returns
        · split at returns
          · exact Or.inr (ofBlank returns)
          · cases returns
            exact Or.inl rfl
        · cases returns
      · cases returns
        exact Or.inl rfl

theorem unredact_redact (numbers : NumberSystem ν)
    {data redacted : ICredentialDataDecryptedObject ν}
    (returns : ∀ key, redact type data key = (redacted key).map .ok) : unredact numbers redacted data = data := by
  funext key
  have field := returns key
  simp only [unredact, unredactRestoreValues]
  cases saved : data key with
  | none =>
    simp only [redact, saved, Option.map_none] at field
    rw [Option.map_eq_none_iff.mp field.symm]
    rfl
  | some value =>
    simp only [redact, saved, Option.map_some] at field
    obtain ⟨result, isResult, isOk⟩ := Option.map_eq_some_iff.mp field.symm
    rw [isResult]
    refine congrArg some ?_
    rcases redactField_cases isOk.symm with rfl | ⟨text, rfl, sentinel⟩
    · exact restoreValue_self result
    · simp [restoreValue, sentinel]

/-! ## Redaction and restoring together -/

/-- Redaction hides the differences in hidden fields and no others, and restoring brings back what is saved unless a
sentinel has been put where the saved data has no object; what redaction itself leaves is restored in full. -/
theorem redact_and_unredact (numbers : NumberSystem ν) (type : ICredentialType) :
    (∀ first second : ICredentialDataDecryptedObject ν, PasswordsAreStrings type first →
      PasswordsAreStrings type second → SameButSecrets type first second →
      (redact type first = redact type second ↔ DifferInHidden type first second)) ∧
    (∀ edited saved : ICredentialDataDecryptedObject ν,
      unredact numbers edited saved = restored numbers edited saved ↔
        ¬ Misplaced numbers (.object saved) (.object edited)) ∧
    (∀ data redacted : ICredentialDataDecryptedObject ν,
      (∀ key, redact type data key = (redacted key).map .ok) → unredact numbers redacted data = data) :=
  ⟨fun _ _ strings _ same => redact_eq_iff same strings, unredact_eq_iff,
    fun _ _ returns => unredact_redact numbers returns⟩

/-- A type with a password inside a collection. -/
def exampleType : ICredentialType :=
  .mk [] [.mk "headers" false false false [.mk "token" true false false []]]

def exampleData (token : String) : ICredentialDataDecryptedObject Nat := fun key =>
  if key = ⟨"headers", by decide⟩ then
    some (.object fun key =>
      if key = ⟨"token", by decide⟩ then some (.primitive (.string token)) else none)
  else
    none

theorem sameButSecrets_example : SameButSecrets exampleType (exampleData "a") (exampleData "b") where
  sameKeys key := by
    simp only [exampleData]
    split <;> rfl
  tokens key value value' field field' isToken := by
    simp only [exampleData] at field
    split at field
    next isHeaders =>
      subst isHeaders
      exact absurd isToken (by decide)
    · cases field
  others key value value' field field' notToken := by
    simp only [exampleData] at field field'
    split at field
    next isHeaders =>
      subst isHeaders
      rw [if_pos rfl] at field'
      cases field
      cases field'
      refine .collection (List.mem_singleton.mpr rfl) rfl (.object ?_ ?_)
      · intro key
        split <;> rfl
      · intro key value value' field field'
        split at field
        next isToken =>
          subst isToken
          rw [if_pos rfl] at field'
          cases field
          cases field'
          exact .password (List.mem_singleton.mpr rfl) rfl rfl ⟨"a", rfl, by decide, by decide⟩
            ⟨"b", rfl, by decide, by decide⟩
        · cases field
    · cases field

/-- The password in the collection is in plain sight. -/
theorem not_hidden_in_collection :
    ¬ ∀ (type : ICredentialType) (first second : ICredentialDataDecryptedObject Nat), PasswordsAreStrings type first →
      PasswordsAreStrings type second → SameButSecrets type first second →
      redact type first = redact type second := by
  intro hides
  have strings : ∀ token, PasswordsAreStrings exampleType (exampleData token) := by
    intro token key value property field found password
    obtain rfl := List.mem_singleton.mp (List.mem_of_find?_eq_some found)
    cases password
  have headers := congrFun (hides exampleType _ _ (strings "a") (strings "b") sameButSecrets_example)
    ⟨"headers", by decide⟩
  change some (Except.ok (PlainData.object _)) = some (Except.ok (PlainData.object _)) at headers
  simp only [Option.some.injEq, Except.ok.injEq, PlainData.object.injEq] at headers
  have token := congrFun headers ⟨"token", by decide⟩
  simp at token

end N8n.Credentials
