import N8n.Eventbus.EventMessageClasses
import N8n.Library.JsonSecrets

/-! # Anonymized messages

`abstract-event-message.ts` in `packages/cli/src/eventbus/event-message-classes`: the
walk that replaces the strings under keys with an underscore, and the constructor of
the message classes, which are alike in what they do with the option to anonymize.
-/

namespace N8n.Eventbus

open Json

/-- `key.substring(0, 1) === '_'` -/
def isUnderscored (key : String) : Bool := key.toList.head? == some '_'

mutual

/-- What is put under a key; `none` where the modifier gives `undefined`. -/
def modifyValue (modifier : String → Option String) (key : String) : Value → Option Value
  | .string content => if isUnderscored key then (modifier content).map .string else some (.string content)
  | .array items => some (.array (modifyItems modifier items))
  | .object fields => some (.object (modifyUnderscoredKeys modifier fields))
  -- `null` is an object, of which nothing is modified
  | .scalar value => some (.scalar value)

/-- The objects of an array are walked, its strings and the arrays in it are not. -/
def modifyItems (modifier : String → Option String) : List Value → List Value
  | [] => []
  | .object fields :: rest => .object (modifyUnderscoredKeys modifier fields) :: modifyItems modifier rest
  | item :: rest => item :: modifyItems modifier rest

def modifyUnderscoredKeys (modifier : String → Option String) : List (String × Value) → List (String × Value)
  | [] => []
  | (key, value) :: rest =>
    match modifyValue modifier key value with
    | some modified => (key, modified) :: modifyUnderscoredKeys modifier rest
    | none => modifyUnderscoredKeys modifier rest

end

/-- The default of the modifier. -/
def hideSecret (_ : String) : Option String := some "*"

def anonymizePayload (payload : List (String × Value)) : List (String × Value) :=
  modifyUnderscoredKeys hideSecret payload

def EventMessage.anonymize (msg : EventMessage) : Option (List (String × Value)) := msg.payload.map anonymizePayload

/-- The constructor of the classes; `setOptionsOrDefault` covers the payload too. -/
def EventMessage.construct (defaults : Defaults) (__type : EventMessageTypeNames) (options : Value) : EventMessage :=
  let msg := setOptionsOrDefault defaults __type options
  if (options.field? "anonymize").any Value.truthy then
    -- what `anonymize` returns is not used
    let _ := msg.anonymize
    msg
  else msg

/-! ## What is kept -/

mutual

theorem sameOutside_modifyValue (key : String) : ∀ value : Value,
    ∃ modified, modifyValue hideSecret key value = some modified ∧
      (isUnderscored key = true ∨ SameOutside isUnderscored value modified)
  | .scalar value => ⟨_, rfl, .inr (.scalar value)⟩
  | .string content => by
    rw [modifyValue]
    cases underscored : isUnderscored key with
    | true => exact ⟨_, rfl, .inl rfl⟩
    | false => exact ⟨_, rfl, .inr (.string content)⟩
  | .array items => ⟨_, rfl, .inr (.array (sameItems_modifyItems items))⟩
  | .object fields => ⟨_, rfl, .inr (.object (sameFields_modifyUnderscoredKeys fields))⟩

theorem sameItems_modifyItems : ∀ items : List Value, SameItems isUnderscored items (modifyItems hideSecret items)
  | [] => .nil
  | .object fields :: rest => .cons (.object (sameFields_modifyUnderscoredKeys fields)) (sameItems_modifyItems rest)
  | .scalar value :: rest => .cons (.scalar value) (sameItems_modifyItems rest)
  | .string content :: rest => .cons (.string content) (sameItems_modifyItems rest)
  | .array items :: rest => .cons (SameOutside.refl (.array items)) (sameItems_modifyItems rest)

theorem sameFields_modifyUnderscoredKeys :
    ∀ fields : List (String × Value), SameFields isUnderscored fields (modifyUnderscoredKeys hideSecret fields)
  | [] => .nil
  | (key, value) :: rest => by
    obtain ⟨modified, isModified, hidden | same⟩ := sameOutside_modifyValue key value
    · rw [modifyUnderscoredKeys, isModified]
      exact .hidden hidden (sameFields_modifyUnderscoredKeys rest)
    · rw [modifyUnderscoredKeys, isModified]
      exact .shown same (sameFields_modifyUnderscoredKeys rest)

end

mutual

theorem modifyValue_scalars (key : String) : ∀ value : Value,
    (if isUnderscored key then isScalar value else scalarSecrets isUnderscored value) = true →
      modifyValue hideSecret key value = some value
  | .scalar _, _ => rfl
  | .string content, scalars => by
    rw [modifyValue]
    cases underscored : isUnderscored key with
    | true => simp [underscored, isScalar] at scalars
    | false => rfl
  | .array items, scalars => by
    cases underscored : isUnderscored key with
    | true => simp [underscored, isScalar] at scalars
    | false =>
      rw [underscored] at scalars
      rw [modifyValue, modifyItems_scalars items scalars]
  | .object fields, scalars => by
    cases underscored : isUnderscored key with
    | true => simp [underscored, isScalar] at scalars
    | false =>
      rw [underscored] at scalars
      rw [modifyValue, modifyUnderscoredKeys_scalars fields scalars]

theorem modifyItems_scalars : ∀ items : List Value,
    itemsScalarSecrets isUnderscored items = true → modifyItems hideSecret items = items
  | [], _ => rfl
  | .object fields :: rest, scalars => by
    rw [itemsScalarSecrets, Bool.and_eq_true] at scalars
    rw [modifyItems, modifyUnderscoredKeys_scalars fields scalars.1, modifyItems_scalars rest scalars.2]
  | .scalar value :: rest, scalars => by
    rw [itemsScalarSecrets, Bool.and_eq_true] at scalars
    rw [modifyItems, modifyItems_scalars rest scalars.2]
    nofun
  | .string content :: rest, scalars => by
    rw [itemsScalarSecrets, Bool.and_eq_true] at scalars
    rw [modifyItems, modifyItems_scalars rest scalars.2]
    nofun
  | .array items :: rest, scalars => by
    rw [itemsScalarSecrets, Bool.and_eq_true] at scalars
    rw [modifyItems, modifyItems_scalars rest scalars.2]
    nofun

theorem modifyUnderscoredKeys_scalars : ∀ fields : List (String × Value),
    fieldsScalarSecrets isUnderscored fields = true → modifyUnderscoredKeys hideSecret fields = fields
  | [], _ => rfl
  | (key, value) :: rest, scalars => by
    rw [fieldsScalarSecrets, Bool.and_eq_true] at scalars
    rw [modifyUnderscoredKeys, modifyValue_scalars key value scalars.1, modifyUnderscoredKeys_scalars rest scalars.2]

end

/-! ## What is hidden -/

/-- Payloads that agree outside the underscored keys have the same anonymized payload, which keeps everything outside
these keys, and a message constructed with the option to anonymize serializes to it. -/
def AnonymizesSafely (payload : List (String × Value)) : Prop :=
  Hides isUnderscored anonymizePayload payload ∧
  SameFields isUnderscored payload (anonymizePayload payload) ∧
  ∀ defaults __type options, options.field? "payload" = some (.object payload) →
    options.field? "anonymize" = some (.scalar (.bool true)) →
    (EventMessage.construct defaults __type options).serialize.field? "payload" =
      some (.object (anonymizePayload payload))

theorem payload_construct {defaults : Defaults} {__type : EventMessageTypeNames} {options : Value}
    {payload : List (String × Value)} (isPayload : options.field? "payload" = some (.object payload)) :
    (EventMessage.construct defaults __type options).serialize.field? "payload" = some (.object payload) := by
  have kept : (EventMessage.construct defaults __type options).payload = some payload := by
    simp [EventMessage.construct, setOptionsOrDefault, isPayload]
  simp [EventMessage.serialize, kept, Value.field?, Value.lastField?]

/-- Messages are anonymized safely exactly when there is nothing to hide: the payload has no underscored key. -/
theorem anonymizesSafely_iff (payload : List (String × Value)) :
    AnonymizesSafely payload ↔ fieldsHaveSecret isUnderscored payload = false := by
  have hides := hides_iff (fun fields => modifyUnderscoredKeys_scalars fields) payload
  constructor
  · intro safely
    exact hides.mp safely.1
  · intro clear
    have unchanged : anonymizePayload payload = payload :=
      modifyUnderscoredKeys_scalars payload (fieldsScalarSecrets_of_clear payload clear)
    refine ⟨hides.mpr clear, sameFields_modifyUnderscoredKeys payload, fun _ _ _ isPayload _ => ?_⟩
    rw [payload_construct isPayload, unchanged]

/-- A number under an underscored key is sent as it is. -/
theorem not_anonymizesSafely_number : ¬AnonymizesSafely [("_phone", .scalar (.number ⟨['1'], by decide⟩))] := by
  intro safely
  have told := safely.1 [("_phone", .scalar (.number ⟨['2'], by decide⟩))] (.hidden (by decide) .nil)
  simp [anonymizePayload, modifyUnderscoredKeys, modifyValue] at told

end N8n.Eventbus
