import N8n.Library.JsonText

/-! # Values with secret keys

Values that agree but for what is stored under keys of a kind.  What a function
gives is independent of such contents when values that agree elsewhere have the
same result; a function that leaves scalars under these keys as they are is so only
for values without such a key.
-/

namespace Json

variable {secret : String → Bool}

/-! ## Agreement elsewhere -/

mutual

/-- The values agree but for what is stored under secret keys. -/
inductive SameOutside (secret : String → Bool) : Value → Value → Prop
  | scalar (value : Scalar) : SameOutside secret (.scalar value) (.scalar value)
  | string (content : String) : SameOutside secret (.string content) (.string content)
  | array {items items' : List Value} :
    SameItems secret items items' → SameOutside secret (.array items) (.array items')
  | object {fields fields' : List (String × Value)} :
    SameFields secret fields fields' → SameOutside secret (.object fields) (.object fields')

inductive SameItems (secret : String → Bool) : List Value → List Value → Prop
  | nil : SameItems secret [] []
  | cons {item item' : Value} {rest rest' : List Value} :
    SameOutside secret item item' → SameItems secret rest rest' → SameItems secret (item :: rest) (item' :: rest')

inductive SameFields (secret : String → Bool) : List (String × Value) → List (String × Value) → Prop
  | nil : SameFields secret [] []
  | hidden {key : String} {value value' : Value} {rest rest' : List (String × Value)} :
    secret key = true → SameFields secret rest rest' → SameFields secret ((key, value) :: rest) ((key, value') :: rest')
  | shown {key : String} {value value' : Value} {rest rest' : List (String × Value)} :
    SameOutside secret value value' → SameFields secret rest rest' →
      SameFields secret ((key, value) :: rest) ((key, value') :: rest')

end

mutual

theorem SameOutside.refl : ∀ value : Value, SameOutside secret value value
  | .scalar value => .scalar value
  | .string content => .string content
  | .array items => .array (SameItems.refl items)
  | .object fields => .object (SameFields.refl fields)

theorem SameItems.refl : ∀ items : List Value, SameItems secret items items
  | [] => .nil
  | item :: rest => .cons (SameOutside.refl item) (SameItems.refl rest)

theorem SameFields.refl : ∀ fields : List (String × Value), SameFields secret fields fields
  | [] => .nil
  | (_, value) :: rest => .shown (SameOutside.refl value) (SameFields.refl rest)

end

/-! ## Values without secrets -/

mutual

def hasSecret (secret : String → Bool) : Value → Bool
  | .scalar _ => false
  | .string _ => false
  | .array items => itemsHaveSecret secret items
  | .object fields => fieldsHaveSecret secret fields

def itemsHaveSecret (secret : String → Bool) : List Value → Bool
  | [] => false
  | item :: rest => hasSecret secret item || itemsHaveSecret secret rest

def fieldsHaveSecret (secret : String → Bool) : List (String × Value) → Bool
  | [] => false
  | (key, value) :: rest => secret key || hasSecret secret value || fieldsHaveSecret secret rest

end

mutual

theorem SameOutside.eq {value value' : Value} (same : SameOutside secret value value')
    (clear : hasSecret secret value = false) : value' = value := by
  cases same with
  | scalar value => rfl
  | string content => rfl
  | array items => rw [items.eq (by simpa [hasSecret] using clear)]
  | object fields => rw [fields.eq (by simpa [hasSecret] using clear)]

theorem SameItems.eq {items items' : List Value} (same : SameItems secret items items')
    (clear : itemsHaveSecret secret items = false) : items' = items := by
  cases same with
  | nil => rfl
  | cons item rest =>
    simp only [itemsHaveSecret, Bool.or_eq_false_iff] at clear
    rw [item.eq clear.1, rest.eq clear.2]

theorem SameFields.eq {fields fields' : List (String × Value)} (same : SameFields secret fields fields')
    (clear : fieldsHaveSecret secret fields = false) : fields' = fields := by
  cases same with
  | nil => rfl
  | hidden isSecret rest => simp [fieldsHaveSecret, isSecret] at clear
  | shown value rest =>
    simp only [fieldsHaveSecret, Bool.or_eq_false_iff] at clear
    rw [value.eq clear.1.2, rest.eq clear.2]

end

/-! ## Replaced secrets -/

mutual

/-- What is stored under the outermost secret keys is replaced. -/
def fill (secret : String → Bool) (filler : Value) : Value → Value
  | .scalar value => .scalar value
  | .string content => .string content
  | .array items => .array (fillItems secret filler items)
  | .object fields => .object (fillFields secret filler fields)

def fillItems (secret : String → Bool) (filler : Value) : List Value → List Value
  | [] => []
  | item :: rest => fill secret filler item :: fillItems secret filler rest

def fillFields (secret : String → Bool) (filler : Value) : List (String × Value) → List (String × Value)
  | [] => []
  | (key, value) :: rest =>
    (key, if secret key then filler else fill secret filler value) :: fillFields secret filler rest

end

variable {filler : Value}

mutual

theorem sameOutside_fill : ∀ value : Value, SameOutside secret value (fill secret filler value)
  | .scalar value => .scalar value
  | .string content => .string content
  | .array items => .array (sameItems_fillItems items)
  | .object fields => .object (sameFields_fillFields fields)

theorem sameItems_fillItems : ∀ items : List Value, SameItems secret items (fillItems secret filler items)
  | [] => .nil
  | item :: rest => .cons (sameOutside_fill item) (sameItems_fillItems rest)

theorem sameFields_fillFields :
    ∀ fields : List (String × Value), SameFields secret fields (fillFields secret filler fields)
  | [] => .nil
  | (key, value) :: rest => by
    rw [fillFields]
    cases isSecret : secret key with
    | true => exact .hidden isSecret (sameFields_fillFields rest)
    | false => exact .shown (by simpa [isSecret] using sameOutside_fill value) (sameFields_fillFields rest)

end

mutual

/-- Two fillers tell whether there is a secret. -/
theorem hasSecret_of_fill {filler' : Value} (different : filler ≠ filler') :
    ∀ value : Value, fill secret filler value = fill secret filler' value → hasSecret secret value = false
  | .scalar _, _ => rfl
  | .string _, _ => rfl
  | .array items, same => itemsHaveSecret_of_fill different items (by simpa [fill] using same)
  | .object fields, same => fieldsHaveSecret_of_fill different fields (by simpa [fill] using same)

theorem itemsHaveSecret_of_fill {filler' : Value} (different : filler ≠ filler') :
    ∀ items : List Value, fillItems secret filler items = fillItems secret filler' items →
      itemsHaveSecret secret items = false
  | [], _ => rfl
  | item :: rest, same => by
    simp only [fillItems, List.cons.injEq] at same
    rw [itemsHaveSecret, hasSecret_of_fill different item same.1, itemsHaveSecret_of_fill different rest same.2]
    rfl

theorem fieldsHaveSecret_of_fill {filler' : Value} (different : filler ≠ filler') :
    ∀ fields : List (String × Value), fillFields secret filler fields = fillFields secret filler' fields →
      fieldsHaveSecret secret fields = false
  | [], _ => rfl
  | (key, value) :: rest, same => by
    simp only [fillFields, List.cons.injEq, Prod.mk.injEq, true_and] at same
    cases isSecret : secret key with
    | true => exact absurd (by simpa [isSecret] using same.1) different
    | false =>
      rw [fieldsHaveSecret, isSecret, hasSecret_of_fill different value (by simpa [isSecret] using same.1),
        fieldsHaveSecret_of_fill different rest same.2]
      rfl

end

/-! ## Scalars as secrets -/

def isScalar : Value → Bool
  | .scalar _ => true
  | _ => false

mutual

/-- Under the outermost secret keys there are scalars only. -/
def scalarSecrets (secret : String → Bool) : Value → Bool
  | .scalar _ => true
  | .string _ => true
  | .array items => itemsScalarSecrets secret items
  | .object fields => fieldsScalarSecrets secret fields

def itemsScalarSecrets (secret : String → Bool) : List Value → Bool
  | [] => true
  | item :: rest => scalarSecrets secret item && itemsScalarSecrets secret rest

def fieldsScalarSecrets (secret : String → Bool) : List (String × Value) → Bool
  | [] => true
  | (key, value) :: rest =>
    (if secret key then isScalar value else scalarSecrets secret value) && fieldsScalarSecrets secret rest

end

variable {scalar : Scalar}

mutual

theorem scalarSecrets_fill : ∀ value : Value, scalarSecrets secret (fill secret (.scalar scalar) value) = true
  | .scalar _ => rfl
  | .string _ => rfl
  | .array items => itemsScalarSecrets_fill items
  | .object fields => fieldsScalarSecrets_fill fields

theorem itemsScalarSecrets_fill :
    ∀ items : List Value, itemsScalarSecrets secret (fillItems secret (.scalar scalar) items) = true
  | [] => rfl
  | item :: rest => by
    rw [fillItems, itemsScalarSecrets, scalarSecrets_fill item, itemsScalarSecrets_fill rest]
    rfl

theorem fieldsScalarSecrets_fill :
    ∀ fields : List (String × Value), fieldsScalarSecrets secret (fillFields secret (.scalar scalar) fields) = true
  | [] => rfl
  | (key, value) :: rest => by
    rw [fillFields, fieldsScalarSecrets, fieldsScalarSecrets_fill rest]
    cases secret key with
    | true => rfl
    | false => simpa using scalarSecrets_fill value

end

mutual

theorem scalarSecrets_of_clear : ∀ value : Value, hasSecret secret value = false → scalarSecrets secret value = true
  | .scalar _, _ => rfl
  | .string _, _ => rfl
  | .array items, clear => itemsScalarSecrets_of_clear items clear
  | .object fields, clear => fieldsScalarSecrets_of_clear fields clear

theorem itemsScalarSecrets_of_clear :
    ∀ items : List Value, itemsHaveSecret secret items = false → itemsScalarSecrets secret items = true
  | [], _ => rfl
  | item :: rest, clear => by
    simp only [itemsHaveSecret, Bool.or_eq_false_iff] at clear
    rw [itemsScalarSecrets, scalarSecrets_of_clear item clear.1, itemsScalarSecrets_of_clear rest clear.2]
    rfl

theorem fieldsScalarSecrets_of_clear :
    ∀ fields : List (String × Value), fieldsHaveSecret secret fields = false → fieldsScalarSecrets secret fields = true
  | [], _ => rfl
  | (key, value) :: rest, clear => by
    simp only [fieldsHaveSecret, Bool.or_eq_false_iff] at clear
    rw [fieldsScalarSecrets, fieldsScalarSecrets_of_clear rest clear.2, clear.1.1]
    simpa using scalarSecrets_of_clear value clear.1.2

end

/-! ## Hidden secrets -/

/-- The result does not depend on what is stored under secret keys. -/
def Hides (secret : String → Bool) (change : List (String × Value) → List (String × Value))
    (fields : List (String × Value)) : Prop :=
  ∀ fields', SameFields secret fields fields' → change fields' = change fields

/-- When scalars under secret keys are left as they are, only fields without a secret key are hidden. -/
theorem hides_iff {change : List (String × Value) → List (String × Value)}
    (plain : ∀ fields, fieldsScalarSecrets secret fields = true → change fields = fields)
    (fields : List (String × Value)) : Hides secret change fields ↔ fieldsHaveSecret secret fields = false := by
  constructor
  · intro hides
    have filled (scalar : Scalar) : change fields = fillFields secret (.scalar scalar) fields := by
      rw [← hides _ (sameFields_fillFields fields), plain _ (fieldsScalarSecrets_fill fields)]
    have different : Value.scalar .null ≠ .scalar (.bool true) := nofun
    exact fieldsHaveSecret_of_fill different fields ((filled .null).symm.trans (filled (.bool true)))
  · intro clear fields' same
    rw [same.eq clear]

end Json
