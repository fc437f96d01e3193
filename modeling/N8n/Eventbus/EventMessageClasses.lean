import N8n.Library.JsonText

/-! # Event messages

`packages/cli/src/eventbus/event-message-classes`: the classes with the names of
their events, how a message and a confirmation are serialized, and the checks
that recognize them in the parsed lines of a log.
-/

namespace N8n.Eventbus

open Json

inductive EventMessageTypeNames
  | generic
  | audit
  | confirm
  | workflow
  | node
  | execution
  | aiNode
deriving DecidableEq

def EventMessageTypeNames.text : EventMessageTypeNames → String
  | generic => "$$EventMessage"
  | audit => "$$EventMessageAudit"
  | confirm => "$$EventMessageConfirm"
  | workflow => "$$EventMessageWorkflow"
  | node => "$$EventMessageNode"
  | execution => "$$EventMessageExecution"
  | aiNode => "$$EventMessageAiNode"

def eventNamesAiNodes : List String :=
  ["n8n.ai.memory.get.messages", "n8n.ai.memory.added.message", "n8n.ai.output.parser.parsed",
    "n8n.ai.retriever.get.relevant.documents", "n8n.ai.embeddings.embedded.document",
    "n8n.ai.embeddings.embedded.query", "n8n.ai.document.processed", "n8n.ai.text.splitter.split",
    "n8n.ai.tool.called", "n8n.ai.vector.store.searched", "n8n.ai.llm.generated", "n8n.ai.llm.error",
    "n8n.ai.vector.store.populated", "n8n.ai.vector.store.updated"]

def eventNamesWorkflow : List String := ["n8n.workflow.started", "n8n.workflow.success", "n8n.workflow.failed"]

def eventNamesGeneric : List String := ["n8n.worker.started", "n8n.worker.stopped"]

def eventNamesNode : List String := ["n8n.node.started", "n8n.node.finished"]

def eventNamesExecution : List String := ["n8n.execution.throttled", "n8n.execution.started-during-bootup"]

def eventNamesAudit : List String :=
  ["n8n.audit.user.login.success", "n8n.audit.user.login.failed", "n8n.audit.user.signedup",
    "n8n.audit.user.updated", "n8n.audit.user.deleted", "n8n.audit.user.invited",
    "n8n.audit.user.invitation.accepted", "n8n.audit.user.reinvited", "n8n.audit.user.email.failed",
    "n8n.audit.user.reset.requested", "n8n.audit.user.reset", "n8n.audit.user.credentials.created",
    "n8n.audit.user.credentials.shared", "n8n.audit.user.credentials.updated",
    "n8n.audit.user.credentials.deleted", "n8n.audit.user.api.created", "n8n.audit.user.api.deleted",
    "n8n.audit.package.installed", "n8n.audit.package.updated", "n8n.audit.package.deleted",
    "n8n.audit.workflow.created", "n8n.audit.workflow.deleted", "n8n.audit.workflow.updated"]

def eventNamesTypes : List String :=
  eventNamesAudit ++ eventNamesWorkflow ++ eventNamesNode ++ eventNamesExecution ++ eventNamesGeneric ++
    eventNamesAiNodes ++ ["n8n.destination.test"]

/-- The names that the options of the class allow; a generic message may have any. -/
def eventNamesOf : EventMessageTypeNames → List String
  | .generic => eventNamesTypes
  | .audit => eventNamesAudit
  | .confirm => []
  | .workflow => eventNamesWorkflow
  | .node => eventNamesNode
  | .execution => eventNamesExecution
  | .aiNode => eventNamesAiNodes

/-- A message; `ts` is the ISO text of its time. -/
structure EventMessage where
  __type : EventMessageTypeNames
  id : String
  ts : String
  eventName : String
  message : String
  payload : Option (List (String × Value))

/-- A message of one of the classes. -/
structure EventMessageTypes extends EventMessage where
  named : eventName ∈ eventNamesOf __type

def EventMessage.serialize (msg : EventMessage) : Value :=
  .object ([("__type", .string msg.__type.text), ("id", .string msg.id), ("ts", .string msg.ts),
      ("eventName", .string msg.eventName), ("message", .string msg.message)] ++
    msg.payload.toList.map fun payload => ("payload", .object payload))

structure EventMessageConfirm where
  confirm : String
  ts : String
  source : Option (List (String × Value))

def EventMessageConfirm.serialize (msg : EventMessageConfirm) : Value :=
  .object [("__type", .string EventMessageTypeNames.confirm.text), ("confirm", .string msg.confirm),
    ("ts", .string msg.ts), ("source", .object (msg.source.getD [("name", .string ""), ("id", .string "")]))]

/-! ## What is recognized -/

/-- `\s` -/
def isSpace (char : Char) : Bool :=
  char ∈ ['\t', '\n', '\x0b', '\x0c', '\r', ' ', '\u00a0', '\u1680', '\u2028', '\u2029', '\u202f', '\u205f',
    '\u3000', '\ufeff'] || ('\u2000' ≤ char && char ≤ '\u200a')

/-- What stands behind `[\w\s]+`. -/
def afterEventNamePart (text : List Char) : Option (List Char) :=
  match text.span fun char => char.isAlphanum || char == '_' || isSpace char with
  | ([], _) => none
  | (_, rest) => some rest

/-- `/^[\w\s]+\.[\w\s]+\.[\w\s]+/`; a dot ends every part, so there is nothing to try again. -/
def matchesEventName (text : List Char) : Bool :=
  match afterEventNamePart text with
  | some ('.' :: rest) =>
    match afterEventNamePart rest with
    | some ('.' :: rest) => (afterEventNamePart rest).isSome
    | _ => false
  | _ => false

/-- `none` when the event name has no `match`, which throws. -/
def isEventMessageOptions (candidate : Value) : Option Bool :=
  if !candidate.truthy then some false
  else
    match candidate.field? "eventName" with
    | none => some false
    | some (.string eventName) => some (matchesEventName eventName.toList)
    | some _ => none

def isEventMessageConfirm (candidate : Value) : Bool :=
  candidate.truthy && (candidate.field? "confirm").isSome && (candidate.field? "ts").isSome

/-- What `uuid()` and `DateTime.now()` return where a line lacks an id or a time. -/
structure Defaults where
  uuid : String
  now : String

def string? : Option Value → Option String
  | some (.string content) => some content
  | _ => none

def setOptionsOrDefault (defaults : Defaults) (__type : EventMessageTypeNames) (options : Value) : EventMessage :=
  let eventName := (string? (options.field? "eventName")).getD ""
  { __type, eventName
    id := (string? (options.field? "id")).getD defaults.uuid
    ts := (string? (options.field? "ts")).getD defaults.now
    message := (string? (options.field? "message")).getD eventName
    payload := match options.field? "payload" with
      | some (.object payload) => some payload
      | _ => none }

theorem matchesEventName_of_mem {eventName : String} (isName : eventName ∈ eventNamesTypes) :
    matchesEventName eventName.toList = true := by
  have allMatch : ∀ name ∈ eventNamesTypes, matchesEventName name.toList = true := by decide
  exact allMatch eventName isName

theorem eventNamesOf_subset (__type : EventMessageTypeNames) : eventNamesOf __type ⊆ eventNamesTypes := by
  cases __type <;> intro name member <;> simp_all [eventNamesOf, eventNamesTypes]

theorem matchesEventName_of_named (msg : EventMessageTypes) : matchesEventName msg.eventName.toList = true :=
  matchesEventName_of_mem (eventNamesOf_subset msg.__type msg.named)

theorem isEventMessageOptions_serialize (msg : EventMessageTypes) :
    isEventMessageOptions msg.serialize = some true := by
  have passes := matchesEventName_of_named msg
  cases isPayload : msg.payload <;>
    simp [isEventMessageOptions, EventMessage.serialize, isPayload, Value.truthy, Value.field?, Value.lastField?,
      passes]

theorem isEventMessageConfirm_serialize_message (msg : EventMessage) :
    isEventMessageConfirm msg.serialize = false := by
  cases isPayload : msg.payload <;>
    simp [isEventMessageConfirm, EventMessage.serialize, isPayload, Value.truthy, Value.field?, Value.lastField?]

theorem setOptionsOrDefault_serialize (defaults : Defaults) (msg : EventMessage) :
    setOptionsOrDefault defaults msg.__type msg.serialize = msg := by
  obtain ⟨__type, id, ts, eventName, message, payload⟩ := msg
  cases payload <;>
    simp [setOptionsOrDefault, EventMessage.serialize, Value.field?, Value.lastField?, string?]

theorem isEventMessageOptions_serialize_confirm (msg : EventMessageConfirm) :
    isEventMessageOptions msg.serialize = some false := by
  simp [isEventMessageOptions, EventMessageConfirm.serialize, Value.truthy, Value.field?, Value.lastField?]

theorem isEventMessageConfirm_serialize (msg : EventMessageConfirm) : isEventMessageConfirm msg.serialize = true := by
  simp [isEventMessageConfirm, EventMessageConfirm.serialize, Value.truthy, Value.field?, Value.lastField?]

theorem field?_confirm_serialize (msg : EventMessageConfirm) :
    msg.serialize.field? "confirm" = some (.string msg.confirm) := by
  simp [EventMessageConfirm.serialize, Value.field?, Value.lastField?]

end N8n.Eventbus
