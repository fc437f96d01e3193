import N8n.Library.OrderedMap
import N8n.Webhooks.WebhookService

/-! # Test webhooks

`packages/cli/src/webhooks/test-webhooks.ts` and its registrations in
`packages/cli/src/webhooks/test-webhook-registrations.service.ts`, on one
instance.  The registrations of all workflows are in one hash.  Each call is one
step; what the third-party services do in it is given with the call.
-/

namespace N8n.Webhooks

/-- `removeTrailingSlash` in `packages/cli/src/utils.ts`. -/
def removeTrailingSlash (path : String) : String :=
  if path.toList.getLast? = some '/' then String.ofList path.toList.dropLast else path

structure IWebhookData where
  httpMethod : IHttpRequestMethods
  path : String
  webhookId : Option String
  node : String
  workflowId : String
  /-- `webhookDescription.restartWebhook` -/
  restartWebhook : Bool
  isTest : Bool
  userId : Option String
deriving DecidableEq, Repr

structure TestWebhookRegistration where
  pushRef : Option String
  /-- The id of `workflowEntity`. -/
  workflowEntity : String
  destinationNode : Option String
  webhook : IWebhookData
deriving DecidableEq, Repr

/-- The path behind its first slash. -/
def cutFirstSegment (path : String) : String :=
  if path.toList.contains '/' then String.ofList ((path.toList.dropWhile (· ≠ '/')).drop 1) else path

def toKey (httpMethod : IHttpRequestMethods) (path : String) (webhookId : Option String) : String :=
  let id := webhookId.getD ""
  if id = "" then httpMethod.text ++ "|" ++ path
  else
    let path := if id.toList.isPrefixOf path.toList then cutFirstSegment path else path
    httpMethod.text ++ "|" ++ id ++ "|" ++ toString (segments path).length

def IWebhookData.key (webhook : IWebhookData) : String := toKey webhook.httpMethod webhook.path webhook.webhookId

/-- What happens to a webhook that is to be registered. -/
inductive RegistrationOutcome where
  /-- The registration is not stored. -/
  | registerThrows
  /-- An error after it has been stored, with or without a webhook at the third-party service. -/
  | throws (created : Bool)
  | succeeds (created : Bool)
deriving DecidableEq, Repr

def RegistrationOutcome.created : RegistrationOutcome → Bool
  | registerThrows => false
  | throws created | succeeds created => created

structure NeedsWebhookCall where
  userId : String
  workflowEntity : String
  /-- What `getWorkflowWebhooks` returns, with what happens to each. -/
  webhooks : List (IWebhookData × RegistrationOutcome)
  /-- The nodes in `runData`. -/
  runData : List String
  pushRef : Option String
  destinationNode : Option String
  /-- The name of `triggerToStartFrom`, and whether it has data. -/
  triggerToStartFrom : Option (String × Bool)
  /-- Whether the webhook of a key can be deleted at the third-party service. -/
  deletes : String → Bool

inductive ExecuteOutcome where
  | nodeMissing
  /-- The request was related to the setup. -/
  | noExecution
  | ended
deriving DecidableEq, Repr

inductive TestWebhookEvent where
  | needsWebhook (call : NeedsWebhookCall)
  | executeWebhook (httpMethod : IHttpRequestMethods) (path : String) (outcome : ExecuteOutcome)
      (deletes : String → Bool)
  | cancelWebhook (workflowId : String) (deletes : String → Bool)
  | timeout (timer : Nat) (deletes : String → Bool)

structure TestWebhooks where
  registrations : OrderedMap String TestWebhookRegistration
  timeouts : String → Option Nat
  /-- The timers that are armed, each with the workflow that it cancels. -/
  timers : Nat → Option String
  nextTimer : Nat
  /-- The webhooks at third-party services, by workflow and key. -/
  created : List (String × String)

namespace TestWebhooks

def new : TestWebhooks :=
  { registrations := ∅, timeouts := fun _ => none, timers := fun _ => none, nextTimer := 0, created := [] }

/-! ## Registrations -/

def register (test : TestWebhooks) (registration : TestWebhookRegistration) : TestWebhooks :=
  { test with registrations := test.registrations.set registration.webhook.key registration }

def setCreated (test : TestWebhooks) (webhook : IWebhookData) (created : Bool) : TestWebhooks :=
  if created then { test with created := (webhook.workflowId, webhook.key) :: test.created } else test

def webhooksOf (test : TestWebhooks) (workflowId : String) : List IWebhookData :=
  (test.registrations.values.map TestWebhookRegistration.webhook).filter fun webhook =>
    webhook.workflowId = workflowId

/-- The webhooks are deleted up to the first one for which that throws. -/
def deleteWebhooks (deletes : String → Bool) (test : TestWebhooks) : List IWebhookData → TestWebhooks × Bool
  | [] => (test, true)
  | webhook :: rest =>
    if deletes webhook.key then
      deleteWebhooks deletes
        { test with created := test.created.filter (· ≠ (webhook.workflowId, webhook.key)) } rest
    else (test, false)

/-- Whether the call returns is the second component. -/
def deactivateWebhooks (test : TestWebhooks) (workflowId : String) (deletes : String → Bool) :
    TestWebhooks × Bool :=
  if test.webhooksOf workflowId = [] then (test, true)
  else
    match deleteWebhooks deletes test (test.webhooksOf workflowId) with
    | (deleted, true) => ({ deleted with registrations := ∅ }, true)
    | (deleted, false) => (deleted, false)

/-! ## Timers -/

def setTimeout (test : TestWebhooks) (workflowId : String) : TestWebhooks :=
  { test with
    timers := Function.update test.timers test.nextTimer (some workflowId)
    nextTimer := test.nextTimer + 1 }

def clearTimeout (test : TestWebhooks) (key : String) : TestWebhooks :=
  match test.timeouts key with
  | none => test
  | some timeout => { test with timers := Function.update test.timers timeout none }

def setTimeoutOf (test : TestWebhooks) (key : String) (timeout : Option Nat) : TestWebhooks :=
  { test with timeouts := Function.update test.timeouts key timeout }

/-! ## Calls -/

def cacheableWebhook (call : NeedsWebhookCall) (webhook : IWebhookData) : IWebhookData :=
  { webhook with
    workflowId := call.workflowEntity
    path := removeTrailingSlash webhook.path
    isTest := true
    userId := some call.userId }

def registrationOf (call : NeedsWebhookCall) (webhook : IWebhookData) : TestWebhookRegistration :=
  { pushRef := call.pushRef
    workflowEntity := call.workflowEntity
    destinationNode := call.destinationNode
    webhook := cacheableWebhook call webhook }

/-- The condition on which `needsWebhook` throws a `WebhookPathTakenError`. -/
def isPathTaken (call : NeedsWebhookCall) (webhook : IWebhookData) : Option TestWebhookRegistration → Bool
  | none => false
  | some registration => webhook.webhookId.getD "" = "" && !registration.webhook.isTest &&
      registration.webhook.userId ≠ some call.userId && registration.webhook.workflowId ≠ call.workflowEntity

/-- The `catch` in the loop of `needsWebhook`. -/
def failRegistration (test : TestWebhooks) (call : NeedsWebhookCall) (key : String) : TestWebhooks :=
  match test.deactivateWebhooks call.workflowEntity call.deletes with
  | (deactivated, true) => deactivated.setTimeoutOf key none
  | (deactivated, false) => deactivated

/-- The loop of `needsWebhook`. -/
def registerWebhooks (call : NeedsWebhookCall) (timeout : Nat) (test : TestWebhooks) :
    List (IWebhookData × RegistrationOutcome) → TestWebhooks
  | [] => test
  | (webhook, outcome) :: rest =>
    if call.runData.contains webhook.node then test
    else if isPathTaken call webhook (test.registrations.get? webhook.key) then test
    else
      let registered := test.register (registrationOf call webhook)
      match outcome with
      | .registerThrows => test.failRegistration call webhook.key
      | .throws created =>
        (registered.setCreated (cacheableWebhook call webhook) created).failRegistration call webhook.key
      | .succeeds created =>
        registerWebhooks call timeout
          ((registered.setCreated (cacheableWebhook call webhook) created).setTimeoutOf webhook.key (some timeout)) rest

/-- The webhooks to listen for; none when `needsWebhook` returns or throws before its loop. -/
def listenedWebhooks (call : NeedsWebhookCall) : List (IWebhookData × RegistrationOutcome) :=
  if call.workflowEntity = "" then []
  else
    let webhooks := match call.triggerToStartFrom with
      | some (_, true) => []
      | some (name, false) => call.webhooks.filter (·.1.node = name)
      | none => call.webhooks
    if webhooks.any (!·.1.restartWebhook) then webhooks else []

def needsWebhook (test : TestWebhooks) (call : NeedsWebhookCall) : TestWebhooks :=
  match listenedWebhooks call with
  | [] => test
  | webhooks => registerWebhooks call test.nextTimer (test.setTimeout call.workflowEntity) webhooks

def getActiveWebhook (test : TestWebhooks) (httpMethod : IHttpRequestMethods) (path : String)
    (webhookId : Option String) : Option IWebhookData := do
  let registration ← test.registrations.get? (toKey httpMethod path webhookId)
  let staticElements := (segments registration.webhook.path).filter fun element => element.toList.head? ≠ some ':'
  let allStaticExist := staticElements.all fun staticElement => (segments path).contains staticElement
  if allStaticExist && staticElements.length > 0 then some registration.webhook
  else if staticElements.length = 0 then some registration.webhook
  else none

/-- The registration that a request is for: the static path first, then the one with a webhook id. -/
def findRegistration (test : TestWebhooks) (httpMethod : IHttpRequestMethods) (requestPath : String) :
    Option TestWebhookRegistration := do
  let path := removeTrailingSlash requestPath
  let webhook ← match test.getActiveWebhook httpMethod path none with
    | some webhook => some webhook
    | none => match segments path with
      | [] => none
      | webhookId :: rest => test.getActiveWebhook httpMethod (String.intercalate "/" rest) (some webhookId)
  test.registrations.get? webhook.key

def executeWebhook (test : TestWebhooks) (httpMethod : IHttpRequestMethods) (path : String) (outcome : ExecuteOutcome)
    (deletes : String → Bool) : TestWebhooks :=
  match test.findRegistration httpMethod path, outcome with
  | some registration, .ended =>
    ((test.clearTimeout registration.webhook.key).deactivateWebhooks registration.workflowEntity deletes).1
  | _, _ => test

def keysOf (test : TestWebhooks) (workflowId : String) : List String :=
  (test.registrations.entries.filter (·.2.workflowEntity = workflowId)).map Prod.fst

def cancelWebhook (test : TestWebhooks) (workflowId : String) (deletes : String → Bool) : TestWebhooks :=
  let cleared := (test.keysOf workflowId).foldl clearTimeout test
  if test.keysOf workflowId = [] then cleared else (cleared.deactivateWebhooks workflowId deletes).1

def step (test : TestWebhooks) : TestWebhookEvent → TestWebhooks
  | .needsWebhook call => test.needsWebhook call
  | .executeWebhook httpMethod path outcome deletes => test.executeWebhook httpMethod path outcome deletes
  | .cancelWebhook workflowId deletes => test.cancelWebhook workflowId deletes
  | .timeout timer deletes => match test.timers timer with
    | none => test
    | some workflowId =>
      { test with timers := Function.update test.timers timer none }.cancelWebhook workflowId deletes

/-! ## Independence -/

/-- Whether the loop of `needsWebhook` ends in its `catch`. -/
def fails (runData : List String) : List (IWebhookData × RegistrationOutcome) → Bool
  | [] => false
  | (webhook, outcome) :: rest =>
    if runData.contains webhook.node then false
    else match outcome with
      | .registerThrows | .throws _ => true
      | .succeeds _ => fails runData rest

/-- The keys that the loop of `needsWebhook` stores a registration under. -/
def reachedKeys (call : NeedsWebhookCall) : List (IWebhookData × RegistrationOutcome) → List String
  | [] => []
  | (webhook, outcome) :: rest =>
    if call.runData.contains webhook.node then []
    else match outcome with
      | .registerThrows => []
      | .throws _ => [(cacheableWebhook call webhook).key]
      | .succeeds _ => (cacheableWebhook call webhook).key :: reachedKeys call rest

def endedTest (test : TestWebhooks) : TestWebhookEvent → Option String
  | .needsWebhook call => if fails call.runData (listenedWebhooks call) then some call.workflowEntity else none
  | .executeWebhook httpMethod path outcome _ =>
    if outcome = .ended then (test.findRegistration httpMethod path).map TestWebhookRegistration.workflowEntity
    else none
  | .cancelWebhook workflowId _ => some workflowId
  | .timeout timer _ => test.timers timer

def concerned (test : TestWebhooks) : TestWebhookEvent → Option String
  | .needsWebhook call => some call.workflowEntity
  | event => test.endedTest event

def IsRegistered (test : TestWebhooks) (workflowId key : String) : Prop :=
  ∃ registration, test.registrations.get? key = some registration ∧ registration.webhook.workflowId = workflowId

structure Independent (test : TestWebhooks) (event : TestWebhookEvent) : Prop where
  removesOwn : ∀ workflowId, test.endedTest event = some workflowId → ∀ key registration,
    (test.step event).registrations.get? key = some registration ↔
      test.registrations.get? key = some registration ∧ registration.webhook.workflowId ≠ workflowId
  keepsOthers : ∀ key registration, test.registrations.get? key = some registration →
    test.concerned event ≠ some registration.webhook.workflowId →
    (test.step event).registrations.get? key = some registration
  created : ∀ entry ∈ (test.step event).created, (test.step event).IsRegistered entry.1 entry.2

/-- When a test with registrations ends, these and the ones just made under `keys`, no other workflow has any, and all
of them can be deleted. -/
def EndsAlone (test : TestWebhooks) (workflowId : String) (keys : List String) (deletes : String → Bool) : Prop :=
  (∃ key, key ∈ keys ∨ test.IsRegistered workflowId key) →
    (∀ key registration, test.registrations.get? key = some registration →
      registration.webhook.workflowId = workflowId) ∧
    ∀ key, key ∈ keys ∨ test.IsRegistered workflowId key → deletes key = true

/-- No registration of another workflow has the key of a new one, and a test ends while there are no others. -/
def KeepsApart (test : TestWebhooks) : TestWebhookEvent → Prop
  | .needsWebhook call =>
    (∀ key ∈ reachedKeys call (listenedWebhooks call), ∀ registration,
      test.registrations.get? key = some registration → registration.webhook.workflowId = call.workflowEntity) ∧
    (fails call.runData (listenedWebhooks call) = true →
      test.EndsAlone call.workflowEntity (reachedKeys call (listenedWebhooks call)) call.deletes)
  | .executeWebhook httpMethod path outcome deletes => ∀ registration,
    test.findRegistration httpMethod path = some registration → outcome = .ended →
      test.EndsAlone registration.workflowEntity [] deletes
  | .cancelWebhook workflowId deletes => test.EndsAlone workflowId [] deletes
  | .timeout timer deletes => ∀ workflowId, test.timers timer = some workflowId → test.EndsAlone workflowId [] deletes

/-- Each registration is filed under its key and is of the workflow that it was made for. -/
structure WellFormed (test : TestWebhooks) : Prop where
  keyed : ∀ key registration, test.registrations.get? key = some registration → registration.webhook.key = key
  own : ∀ key registration, test.registrations.get? key = some registration →
    registration.webhook.workflowId = registration.workflowEntity
  isTest : ∀ key registration, test.registrations.get? key = some registration → registration.webhook.isTest = true

/-- What is created at a third-party service is registered. -/
structure Consistent (test : TestWebhooks) : Prop extends WellFormed test where
  created : ∀ entry ∈ test.created, test.IsRegistered entry.1 entry.2

theorem Consistent.new : new.Consistent where
  keyed := fun _ _ found => nomatch found
  own := fun _ _ found => nomatch found
  isTest := fun _ _ found => nomatch found
  created := fun _ member => nomatch member

/-! ## Deactivation -/

variable {test : TestWebhooks} {workflowId : String}

theorem mem_webhooksOf {webhook : IWebhookData} :
    webhook ∈ test.webhooksOf workflowId ↔ ∃ key registration,
      test.registrations.get? key = some registration ∧ registration.webhook = webhook ∧
        webhook.workflowId = workflowId := by
  simp only [webhooksOf, List.mem_filter, List.mem_map, OrderedMap.mem_values, OrderedMap.get?_eq_some,
    decide_eq_true_eq]
  constructor
  · rintro ⟨⟨registration, ⟨key, member⟩, rfl⟩, own⟩
    exact ⟨key, registration, member, rfl, own⟩
  · rintro ⟨key, registration, member, rfl, own⟩
    exact ⟨⟨registration, ⟨key, member⟩, rfl⟩, own⟩

theorem deleteWebhooks_spec (deletes : String → Bool) (test : TestWebhooks) (webhooks : List IWebhookData) :
    ∃ created, deleteWebhooks deletes test webhooks =
        ({ test with created }, webhooks.all fun webhook => deletes webhook.key) ∧
      (∀ entry ∈ created, entry ∈ test.created) ∧
      ((webhooks.all fun webhook => deletes webhook.key) = true →
        ∀ entry ∈ created, ∀ webhook ∈ webhooks, entry ≠ (webhook.workflowId, webhook.key)) := by
  induction webhooks generalizing test with
  | nil => exact ⟨test.created, rfl, fun _ member => member, by simp⟩
  | cons webhook rest ih =>
    cases deleted : deletes webhook.key with
    | false => exact ⟨test.created, by simp [deleteWebhooks, deleted], fun _ member => member, by simp [deleted]⟩
    | true =>
      obtain ⟨created, isDeleted, fewer, all⟩ := ih
        { test with created := test.created.filter (· ≠ (webhook.workflowId, webhook.key)) }
      refine ⟨created, ?_, ?_, ?_⟩
      · simp only [deleteWebhooks, deleted, if_true, isDeleted, List.all_cons, Bool.true_and]
      · intro entry member
        exact (List.mem_filter.mp (fewer entry member)).1
      · intro allDeleted entry member other isOther
        rw [List.all_cons, deleted, Bool.true_and] at allDeleted
        obtain rfl | isOther := List.mem_cons.mp isOther
        · exact of_decide_eq_true (List.mem_filter.mp (fewer entry member)).2
        · exact all allDeleted entry member other isOther

theorem deactivateWebhooks_cases (test : TestWebhooks) (workflowId : String) (deletes : String → Bool) :
    (test.webhooksOf workflowId = [] ∧ (test.deactivateWebhooks workflowId deletes).1 = test) ∨
    (test.webhooksOf workflowId ≠ [] ∧ (∀ webhook ∈ test.webhooksOf workflowId, deletes webhook.key = true) ∧
      ∃ created, (test.deactivateWebhooks workflowId deletes).1 = { test with registrations := ∅, created } ∧
        (∀ entry ∈ created, entry ∈ test.created) ∧
        ∀ entry ∈ created, ∀ webhook ∈ test.webhooksOf workflowId, entry ≠ (webhook.workflowId, webhook.key)) ∨
    (∃ webhook ∈ test.webhooksOf workflowId, deletes webhook.key = false ∧
      ∃ created, (test.deactivateWebhooks workflowId deletes).1 = { test with created } ∧
        ∀ entry ∈ created, entry ∈ test.created) := by
  unfold deactivateWebhooks
  by_cases nothing : test.webhooksOf workflowId = []
  · exact Or.inl ⟨nothing, by rw [if_pos nothing]⟩
  · obtain ⟨created, isDeleted, fewer, all⟩ := deleteWebhooks_spec deletes test (test.webhooksOf workflowId)
    rw [if_neg nothing, isDeleted]
    cases deleted : (test.webhooksOf workflowId).all fun webhook => deletes webhook.key with
    | true => exact Or.inr (Or.inl ⟨nothing, List.all_eq_true.mp deleted, created, rfl, fewer, all deleted⟩)
    | false =>
      obtain ⟨webhook, member, notDeleted⟩ := List.all_eq_false.mp deleted
      exact Or.inr (Or.inr ⟨webhook, member, Bool.eq_false_iff.mpr notDeleted, created, rfl, fewer⟩)

structure Registers (test registered : TestWebhooks) (workflowId : String) (keys : List String) : Prop where
  others : ∀ key, key ∉ keys → registered.registrations.get? key = test.registrations.get? key
  new : ∀ key ∈ keys, registered.IsRegistered workflowId key
  created : ∀ entry ∈ registered.created, entry ∈ test.created ∨ entry.1 = workflowId ∧ entry.2 ∈ keys

theorem Registers.isRegistered_iff {test registered : TestWebhooks} {workflowId : String} {keys : List String}
    (registers : Registers test registered workflowId keys) {key : String} :
    registered.IsRegistered workflowId key ↔ key ∈ keys ∨ test.IsRegistered workflowId key := by
  by_cases isNew : key ∈ keys
  · exact iff_of_true (registers.new key isNew) (Or.inl isNew)
  · simp only [IsRegistered, registers.others key isNew, isNew, false_or]

theorem webhooksOf_eq_nil_iff :
    test.webhooksOf workflowId = [] ↔ ∀ key, ¬ test.IsRegistered workflowId key := by
  constructor
  · rintro nothing key ⟨registration, found, own⟩
    have member := mem_webhooksOf.mpr ⟨key, registration, found, rfl, own⟩
    rw [nothing] at member
    contradiction
  · intro nothing
    refine List.eq_nil_iff_forall_not_mem.mpr fun webhook member => ?_
    obtain ⟨key, registration, found, rfl, own⟩ := mem_webhooksOf.mp member
    exact nothing key ⟨registration, found, own⟩

theorem WellFormed.forall_webhooksOf {test : TestWebhooks} (wellFormed : test.WellFormed) {workflowId : String}
    {property : String → Prop} :
    (∀ webhook ∈ test.webhooksOf workflowId, property webhook.key) ↔
      ∀ key, test.IsRegistered workflowId key → property key := by
  constructor
  · rintro all key ⟨registration, found, own⟩
    have held := all _ (mem_webhooksOf.mpr ⟨key, registration, found, rfl, own⟩)
    rwa [wellFormed.keyed _ _ found] at held
  · intro all webhook member
    obtain ⟨key, registration, found, rfl, own⟩ := mem_webhooksOf.mp member
    rw [wellFormed.keyed _ _ found]
    exact all key ⟨registration, found, own⟩

variable {keys : List String} {test registered : TestWebhooks}

/-- The end of a test removes exactly its registrations when it ends alone. -/
theorem Registers.removesOwn_iff
    (registers : Registers test registered workflowId keys) (wellFormed : registered.WellFormed)
    (deletes : String → Bool) :
    (∀ key registration,
      (registered.deactivateWebhooks workflowId deletes).1.registrations.get? key = some registration ↔
        test.registrations.get? key = some registration ∧ registration.webhook.workflowId ≠ workflowId) ↔
      test.EndsAlone workflowId keys deletes := by
  have isRegistered := fun key => @Registers.isRegistered_iff _ _ _ _ registers key
  simp only [EndsAlone, ← isRegistered]
  obtain ⟨nothing, isSame⟩ | ⟨something, all, created, isEmpty, -⟩ |
      ⟨webhook, member, notDeleted, created, isSame, -⟩ := registered.deactivateWebhooks_cases workflowId deletes
  · rw [isSame]
    have none := webhooksOf_eq_nil_iff.mp nothing
    refine iff_of_true ?_ fun ⟨key, isOwn⟩ => absurd isOwn (none key)
    intro key registration
    have noKey : key ∉ keys := fun isNew => none key (registers.new key isNew)
    rw [registers.others key noKey]
    refine ⟨fun found => ⟨found, fun own => ?_⟩, fun found => found.1⟩
    exact none key ((isRegistered key).mpr (Or.inr ⟨registration, found, own⟩))
  · rw [isEmpty]
    have deleted := (@WellFormed.forall_webhooksOf _ wellFormed workflowId fun key => deletes key = true).mp all
    have some : ∃ key, registered.IsRegistered workflowId key := by
      by_contra none
      exact something (webhooksOf_eq_nil_iff.mpr (not_exists.mp none))
    constructor
    · intro removesOwn _
      refine ⟨fun key registration found => ?_, deleted⟩
      by_contra other
      have kept := (removesOwn key registration).mpr ⟨found, other⟩
      simp at kept
    · intro alone key registration
      refine ⟨fun found => by simp at found, fun found => ?_⟩
      exact absurd ((alone some).1 key registration found.1) found.2
  · rw [isSame]
    obtain ⟨key, registration, found, rfl, own⟩ := mem_webhooksOf.mp member
    have isOwn : registered.IsRegistered workflowId key := ⟨registration, found, own⟩
    refine iff_of_false ?_ ?_
    · intro removesOwn
      exact ((removesOwn key registration).mp found).2 own
    · intro alone
      have deleted := (alone ⟨key, isOwn⟩).2 key isOwn
      rw [← wellFormed.keyed _ _ found, notDeleted] at deleted
      contradiction

/-! ## The loop of `needsWebhook` -/

theorem Registers.refl (test : TestWebhooks) (workflowId : String) : Registers test test workflowId [] where
  others := fun _ _ => rfl
  new := fun _ member => nomatch member
  created := fun _ member => Or.inl member

theorem Registers.cons {first second third : TestWebhooks} {workflowId key : String} {keys : List String}
    (before : Registers first second workflowId [key]) (after : Registers second third workflowId keys) :
    Registers first third workflowId (key :: keys) where
  others := fun other isOther => by
    rw [List.mem_cons, not_or] at isOther
    rw [after.others other isOther.2, before.others other (by simpa using isOther.1)]
  new := fun other isNew => after.isRegistered_iff.mpr <| by
    obtain rfl | isNew := List.mem_cons.mp isNew
    · exact Or.inr (before.new other (List.mem_singleton_self other))
    · exact Or.inl isNew
  created := fun entry member => by
    obtain member | ⟨own, isNew⟩ := after.created entry member
    · obtain member | ⟨own, isNew⟩ := before.created entry member
      · exact Or.inl member
      · exact Or.inr ⟨own, List.mem_cons.mpr (Or.inl (List.mem_singleton.mp isNew))⟩
    · exact Or.inr ⟨own, List.mem_cons_of_mem _ isNew⟩

theorem registrations_register (test : TestWebhooks) (call : NeedsWebhookCall) (webhook : IWebhookData)
    (created : Bool) :
    ((test.register (registrationOf call webhook)).setCreated (cacheableWebhook call webhook) created).registrations =
      test.registrations.set (cacheableWebhook call webhook).key (registrationOf call webhook) := by
  cases created <;> rfl

/-- A webhook is stored, and possibly created at its service. -/
theorem Registers.register (test : TestWebhooks) (call : NeedsWebhookCall) (webhook : IWebhookData) (created : Bool) :
    Registers test ((test.register (registrationOf call webhook)).setCreated (cacheableWebhook call webhook) created)
      call.workflowEntity [(cacheableWebhook call webhook).key] := by
  have stored := test.registrations_register call webhook created
  refine ⟨fun key isOther => ?_, fun key isNew => ?_, fun entry member => ?_⟩
  · rw [stored, OrderedMap.get?_set_of_ne _ _ (by simpa using isOther)]
  · obtain rfl := List.mem_singleton.mp isNew
    exact ⟨registrationOf call webhook, by rw [stored, OrderedMap.get?_set_self], rfl⟩
  · cases created with
    | false => exact Or.inl member
    | true =>
      obtain rfl | member := List.mem_cons.mp member
      · exact Or.inr ⟨rfl, List.mem_singleton_self _⟩
      · exact Or.inl member

theorem WellFormed.register {test : TestWebhooks} (wellFormed : test.WellFormed) (call : NeedsWebhookCall)
    (webhook : IWebhookData) (created : Bool) :
    ((test.register (registrationOf call webhook)).setCreated (cacheableWebhook call webhook) created).WellFormed := by
  have stored := test.registrations_register call webhook created
  have either (key : String) (registration : TestWebhookRegistration)
      (found : ((test.register (registrationOf call webhook)).setCreated (cacheableWebhook call webhook)
        created).registrations.get? key = some registration) :
      (key = (cacheableWebhook call webhook).key ∧ registration = registrationOf call webhook) ∨
        test.registrations.get? key = some registration := by
    rw [stored, OrderedMap.get?_set] at found
    split at found
    next same => exact Or.inl ⟨same, (Option.some.inj found).symm⟩
    next => exact Or.inr found
  refine ⟨fun key registration found => ?_, fun key registration found => ?_, fun key registration found => ?_⟩ <;>
    obtain ⟨rfl, rfl⟩ | found := either key registration found
  · rfl
  · exact wellFormed.keyed key registration found
  · rfl
  · exact wellFormed.own key registration found
  · rfl
  · exact wellFormed.isTest key registration found

/-- The webhook of every registration is one of a test, so no path is ever taken. -/
theorem WellFormed.isPathTaken (wellFormed : test.WellFormed) (call : NeedsWebhookCall) (webhook : IWebhookData)
    (key : String) :
    TestWebhooks.isPathTaken call webhook (test.registrations.get? key) = false := by
  cases found : test.registrations.get? key with
  | none => rfl
  | some registration =>
    rw [TestWebhooks.isPathTaken, wellFormed.isTest key registration found]
    simp

/-- What the loop stores before it is left, and whether it ends the test then. -/
theorem WellFormed.registerWebhooks (wellFormed : test.WellFormed) (call : NeedsWebhookCall) (timeout : Nat)
    (webhooks : List (IWebhookData × RegistrationOutcome)) :
    ∃ registered, Registers test registered call.workflowEntity (reachedKeys call webhooks) ∧ registered.WellFormed ∧
      ((fails call.runData webhooks = false ∧ test.registerWebhooks call timeout webhooks = registered) ∨
        (fails call.runData webhooks = true ∧ ∃ key,
          test.registerWebhooks call timeout webhooks = registered.failRegistration call key)) := by
  induction webhooks generalizing test with
  | nil => exact ⟨test, .refl test _, wellFormed, Or.inl ⟨rfl, rfl⟩⟩
  | cons head rest ih =>
    obtain ⟨webhook, outcome⟩ := head
    have notTaken := wellFormed.isPathTaken call webhook webhook.key
    by_cases hasData : call.runData.contains webhook.node = true
    · refine ⟨test, ?_, wellFormed, Or.inl ⟨?_, ?_⟩⟩
      · rw [show reachedKeys call ((webhook, outcome) :: rest) = [] from if_pos hasData]
        exact .refl test _
      · exact if_pos hasData
      · exact if_pos hasData
    · cases outcome <;>
        simp only [reachedKeys, fails, TestWebhooks.registerWebhooks, if_neg hasData, notTaken, Bool.false_eq_true,
          if_false]
      case registerThrows => exact ⟨test, .refl test _, wellFormed, Or.inr ⟨trivial, webhook.key, rfl⟩⟩
      case throws created =>
        exact ⟨_, .register test call webhook created, wellFormed.register call webhook created,
          Or.inr ⟨trivial, webhook.key, rfl⟩⟩
      case succeeds created =>
        have stored := wellFormed.register call webhook created
        obtain ⟨registered, later, wellFormed, isLoop⟩ := @ih
          (((test.register (registrationOf call webhook)).setCreated (cacheableWebhook call webhook)
            created).setTimeoutOf webhook.key (some timeout)) ⟨stored.keyed, stored.own, stored.isTest⟩
        have first := Registers.register test call webhook created
        have first : Registers test (((test.register (registrationOf call webhook)).setCreated
            (cacheableWebhook call webhook) created).setTimeoutOf webhook.key (some timeout)) call.workflowEntity
            [(cacheableWebhook call webhook).key] := ⟨first.others, first.new, first.created⟩
        exact ⟨registered, first.cons later, wellFormed, isLoop⟩

/-! ## One step -/

/-- What the loop has created it has registered, when it takes no key of another workflow. -/
theorem Consistent.registers (consistent : test.Consistent)
    (registers : Registers test registered workflowId keys) (wellFormed : registered.WellFormed)
    (apart : ∀ key ∈ keys, ∀ registration, test.registrations.get? key = some registration →
      registration.webhook.workflowId = workflowId) : registered.Consistent where
  toWellFormed := wellFormed
  created := fun entry member => by
    obtain member | ⟨own, isNew⟩ := registers.created entry member
    · obtain ⟨registration, found, own⟩ := consistent.created entry member
      by_cases isNew : entry.2 ∈ keys
      · rw [← own, apart _ isNew _ found]
        exact registers.new _ isNew
      · exact ⟨registration, (registers.others _ isNew).trans found, own⟩
    · rw [own]
      exact registers.new _ isNew

/-- A test that ends alone leaves nothing behind at the third-party services. -/
theorem Consistent.deactivateWebhooks (consistent : test.Consistent) {deletes : String → Bool}
    (alone : test.EndsAlone workflowId [] deletes) :
    (test.deactivateWebhooks workflowId deletes).1.Consistent := by
  obtain ⟨-, isSame⟩ | ⟨something, -, created, isEmpty, fewer, deleted⟩ |
      ⟨webhook, member, notDeleted, -⟩ := test.deactivateWebhooks_cases workflowId deletes
  · rw [isSame]
    exact consistent
  · rw [isEmpty]
    have isWellFormed : WellFormed { test with registrations := ∅, created := created } :=
      ⟨fun _ _ found => (nomatch found), fun _ _ found => (nomatch found), fun _ _ found => (nomatch found)⟩
    refine ⟨isWellFormed, fun entry member => ?_⟩
    obtain ⟨registration, found, own⟩ := consistent.created entry (fewer entry member)
    have some : ∃ key, test.IsRegistered workflowId key := by
      by_contra none
      exact something (webhooksOf_eq_nil_iff.mpr (not_exists.mp none))
    have isOwn := (alone (some.imp fun _ => Or.inr)).1 _ _ found
    have isWebhook := mem_webhooksOf.mpr ⟨entry.2, registration, found, rfl, isOwn⟩
    refine absurd ?_ (deleted entry member _ isWebhook)
    rw [consistent.keyed _ _ found, own]
  · obtain ⟨key, registration, found, rfl, own⟩ := mem_webhooksOf.mp member
    have isOwn : test.IsRegistered workflowId key := ⟨registration, found, own⟩
    have isDeleted := (alone ⟨key, Or.inr isOwn⟩).2 key (Or.inr isOwn)
    rw [← consistent.keyed _ _ found, notDeleted] at isDeleted
    contradiction

theorem clearTimeouts_eq (keys : List String) (test : TestWebhooks) :
    ∃ timers, keys.foldl clearTimeout test = { test with timers } := by
  induction keys generalizing test with
  | nil => exact ⟨test.timers, rfl⟩
  | cons key rest ih =>
    rw [List.foldl_cons, clearTimeout]
    split
    · exact ih test
    · exact ih _

theorem WellFormed.keysOf_eq_nil_iff (wellFormed : test.WellFormed) :
    test.keysOf workflowId = [] ↔ test.webhooksOf workflowId = [] := by
  rw [webhooksOf_eq_nil_iff, keysOf, List.map_eq_nil_iff, List.filter_eq_nil_iff]
  constructor
  · rintro nothing key ⟨registration, found, own⟩
    have notOwn := nothing _ (OrderedMap.get?_eq_some.mp found)
    rw [decide_eq_true_eq, ← wellFormed.own _ _ found] at notOwn
    exact notOwn own
  · rintro nothing ⟨key, registration⟩ member own
    have found := OrderedMap.get?_eq_some.mpr member
    refine nothing key ⟨registration, found, ?_⟩
    rw [wellFormed.own _ _ found]
    exact of_decide_eq_true own

/-- An execution, a cancellation or a timeout ends a test whatever timers it clears. -/
theorem WellFormed.cancelWebhook (wellFormed : test.WellFormed) (workflowId : String) (deletes : String → Bool) :
    ∃ timers, test.cancelWebhook workflowId deletes =
      ({ test with timers }.deactivateWebhooks workflowId deletes).1 := by
  obtain ⟨timers, isCleared⟩ := clearTimeouts_eq (test.keysOf workflowId) test
  refine ⟨timers, ?_⟩
  simp only [TestWebhooks.cancelWebhook, isCleared]
  split
  next nothing =>
    have nothing : { test with timers }.webhooksOf workflowId = [] := wellFormed.keysOf_eq_nil_iff.mp nothing
    rw [TestWebhooks.deactivateWebhooks, if_pos nothing]
  next => rfl

/-- A call that ends the test of a workflow, and does nothing else to registrations and created webhooks. -/
theorem Consistent.ends {test : TestWebhooks} (consistent : test.Consistent) {event : TestWebhookEvent}
    {workflowId : String} {deletes : String → Bool} {timers : Nat → Option String}
    (ends : test.endedTest event = some workflowId) (isConcerned : test.concerned event = some workflowId)
    (isStep : test.step event = ({ test with timers }.deactivateWebhooks workflowId deletes).1) :
    (test.EndsAlone workflowId [] deletes → (test.step event).Consistent) ∧
      (test.Independent event ↔ test.EndsAlone workflowId [] deletes) := by
  have cleared : Consistent { test with timers } :=
    ⟨⟨consistent.keyed, consistent.own, consistent.isTest⟩, consistent.created⟩
  have registers : Registers test { test with timers } workflowId [] := ⟨fun _ _ => rfl, nofun, fun _ => Or.inl⟩
  have removesOwn := registers.removesOwn_iff cleared.toWellFormed deletes
  have kept (alone : test.EndsAlone workflowId [] deletes) : (test.step event).Consistent := by
    rw [isStep]
    exact cleared.deactivateWebhooks alone
  refine ⟨kept, fun independent => ?_, fun alone => ⟨?_, ?_, (kept alone).created⟩⟩
  · rw [← removesOwn, ← isStep]
    exact independent.removesOwn workflowId ends
  · intro ended isEnded
    obtain rfl := Option.some.inj (ends.symm.trans isEnded)
    rw [isStep]
    exact removesOwn.mpr alone
  · intro key registration found other
    rw [isConcerned, ne_eq, Option.some.injEq] at other
    rw [isStep]
    exact (removesOwn.mpr alone key registration).mpr ⟨found, Ne.symm other⟩

theorem Consistent.unchanged {test : TestWebhooks} (consistent : test.Consistent) {event : TestWebhookEvent}
    (ends : test.endedTest event = none) (isSame : test.step event = test) (apart : test.KeepsApart event) :
    (test.KeepsApart event → (test.step event).Consistent) ∧ (test.Independent event ↔ test.KeepsApart event) := by
  refine ⟨fun _ => by rwa [isSame], iff_of_true ⟨?_, ?_, ?_⟩ apart⟩
  · intro workflowId isEnded
    rw [ends] at isEnded
    contradiction
  · intro key registration found _
    rwa [isSame]
  · rw [isSame]
    exact consistent.created

theorem Registers.endsAlone {deletes : String → Bool}
    (registers : Registers test registered workflowId keys) (alone : test.EndsAlone workflowId keys deletes) :
    registered.EndsAlone workflowId [] deletes := by
  rintro ⟨key, isOwn⟩
  have isOwn : registered.IsRegistered workflowId key := isOwn.resolve_left nofun
  obtain ⟨others, deleted⟩ := alone ⟨key, registers.isRegistered_iff.mp isOwn⟩
  refine ⟨fun other registration found => ?_, fun other isOther => ?_⟩
  · by_cases isNew : other ∈ keys
    · obtain ⟨registration', found', own⟩ := registers.new other isNew
      rwa [Option.some.inj (found.symm.trans found')]
    · exact others other registration ((registers.others other isNew).symm.trans found)
  · exact deleted other (registers.isRegistered_iff.mp (isOther.resolve_left nofun))

theorem failRegistration_eq (test : TestWebhooks) (call : NeedsWebhookCall) (key : String) :
    ∃ timeouts, test.failRegistration call key =
      { (test.deactivateWebhooks call.workflowEntity call.deletes).1 with timeouts } := by
  unfold failRegistration
  split
  next isDeactivated => exact ⟨_, by rw [isDeactivated]; rfl⟩
  next isDeactivated => exact ⟨_, by rw [isDeactivated]⟩

theorem Consistent.needsWebhook (consistent : test.Consistent) (call : NeedsWebhookCall) :
    (test.KeepsApart (.needsWebhook call) → (test.step (.needsWebhook call)).Consistent) ∧
      (test.Independent (.needsWebhook call) ↔ test.KeepsApart (.needsWebhook call)) := by
  by_cases nothing : listenedWebhooks call = []
  · have isSame : test.step (.needsWebhook call) = test := by
      simp only [TestWebhooks.step, TestWebhooks.needsWebhook, nothing]
    exact consistent.unchanged (by simp [endedTest, nothing, fails]) isSame
      (by simp [KeepsApart, nothing, reachedKeys, fails])
  have start : (test.setTimeout call.workflowEntity).WellFormed :=
    ⟨consistent.keyed, consistent.own, consistent.isTest⟩
  obtain ⟨registered, registers, wellFormed, isLoop⟩ :=
    start.registerWebhooks call test.nextTimer (listenedWebhooks call)
  have registers : Registers test registered call.workflowEntity (reachedKeys call (listenedWebhooks call)) :=
    ⟨registers.others, registers.new, registers.created⟩
  have isStep : test.step (.needsWebhook call) = (test.setTimeout call.workflowEntity).registerWebhooks call
      test.nextTimer (listenedWebhooks call) := by
    simp only [TestWebhooks.step, TestWebhooks.needsWebhook]
  rw [← isStep] at isLoop
  obtain ⟨listens, isRegistered⟩ | ⟨failed, key, isFailed⟩ := isLoop
  · have ends : test.endedTest (.needsWebhook call) = none := by simp [endedTest, listens]
    have kept (apart : test.KeepsApart (.needsWebhook call)) : (test.step (.needsWebhook call)).Consistent := by
      rw [isRegistered]
      exact consistent.registers registers wellFormed apart.1
    refine ⟨kept, fun independent => ⟨?_, ?_⟩, fun apart => ⟨?_, ?_, (kept apart).created⟩⟩
    · intro key isNew registration found
      by_contra other
      have stays := independent.keepsOthers key registration found
        (fun same => other (Option.some.inj same).symm)
      rw [isRegistered] at stays
      obtain ⟨registration', found', own⟩ := registers.new key isNew
      obtain rfl := Option.some.inj (stays.symm.trans found')
      exact other own
    · rw [listens]
      nofun
    · intro workflowId isEnded
      rw [ends] at isEnded
      contradiction
    · intro key registration found other
      have notNew : key ∉ reachedKeys call (listenedWebhooks call) := fun isNew =>
        other (congrArg some (apart.1 key isNew registration found).symm)
      rw [isRegistered, registers.others key notNew]
      exact found
  · obtain ⟨timeouts, isDeactivated⟩ := registered.failRegistration_eq call key
    rw [isDeactivated] at isFailed
    have ends : test.endedTest (.needsWebhook call) = some call.workflowEntity := by simp [endedTest, failed]
    have removesOwn := registers.removesOwn_iff wellFormed call.deletes
    have kept (apart : test.KeepsApart (.needsWebhook call)) : (test.step (.needsWebhook call)).Consistent := by
      have deactivated := (consistent.registers registers wellFormed apart.1).deactivateWebhooks
        (registers.endsAlone (apart.2 failed))
      rw [isFailed]
      exact ⟨⟨deactivated.keyed, deactivated.own, deactivated.isTest⟩, deactivated.created⟩
    refine ⟨kept, fun independent => ?_, fun apart => ⟨?_, ?_, (kept apart).created⟩⟩
    · have removes := independent.removesOwn call.workflowEntity ends
      rw [isFailed] at removes
      have alone := removesOwn.mp removes
      refine ⟨fun key isNew registration found => ?_, fun _ => alone⟩
      exact (alone ⟨key, Or.inl isNew⟩).1 key registration found
    · intro workflowId isEnded
      obtain rfl := Option.some.inj (ends.symm.trans isEnded)
      rw [isFailed]
      exact removesOwn.mpr (apart.2 failed)
    · intro key registration found other
      rw [isFailed]
      exact (removesOwn.mpr (apart.2 failed) key registration).mpr
        ⟨found, fun own => other (congrArg some own.symm)⟩

/-- A step keeps the tests apart exactly when the condition holds. -/
theorem Consistent.independent_iff (consistent : test.Consistent) (event : TestWebhookEvent) :
    (test.KeepsApart event → (test.step event).Consistent) ∧ (test.Independent event ↔ test.KeepsApart event) := by
  cases event with
  | needsWebhook call => exact consistent.needsWebhook call
  | executeWebhook httpMethod path outcome deletes =>
    cases found : test.findRegistration httpMethod path with
    | none =>
      have isSame : test.step (.executeWebhook httpMethod path outcome deletes) = test := by
        simp only [TestWebhooks.step, TestWebhooks.executeWebhook, found]
      exact consistent.unchanged (by simp [endedTest, found]) isSame (by simp [KeepsApart, found])
    | some registration =>
      by_cases ended : outcome = .ended
      · subst ended
        obtain ⟨timers, isCleared⟩ := clearTimeouts_eq [registration.webhook.key] test
        have isStep : test.step (.executeWebhook httpMethod path .ended deletes) =
            ({ test with timers }.deactivateWebhooks registration.workflowEntity deletes).1 := by
          simp only [TestWebhooks.step, TestWebhooks.executeWebhook, found, ← isCleared, List.foldl_cons,
            List.foldl_nil]
        have ends : test.endedTest (.executeWebhook httpMethod path .ended deletes) =
            some registration.workflowEntity := by simp [endedTest, found]
        have isCondition : test.KeepsApart (.executeWebhook httpMethod path .ended deletes) ↔
            test.EndsAlone registration.workflowEntity [] deletes := by simp [KeepsApart, found]
        rw [isCondition]
        exact consistent.ends ends ends isStep
      · have isSame : test.step (.executeWebhook httpMethod path outcome deletes) = test := by
          cases outcome with
          | ended => exact absurd rfl ended
          | nodeMissing | noExecution => simp only [TestWebhooks.step, TestWebhooks.executeWebhook, found]
        exact consistent.unchanged (by simp [endedTest, ended]) isSame (by simp [KeepsApart, ended])
  | cancelWebhook workflowId deletes =>
    obtain ⟨timers, isStep⟩ := consistent.toWellFormed.cancelWebhook workflowId deletes
    exact consistent.ends rfl rfl isStep
  | timeout timer deletes =>
    cases armed : test.timers timer with
    | none =>
      have isSame : test.step (.timeout timer deletes) = test := by simp only [TestWebhooks.step, armed]
      exact @Consistent.unchanged _ consistent (.timeout timer deletes) armed isSame (by simp [KeepsApart, armed])
    | some workflowId =>
      have cleared : WellFormed { test with timers := Function.update test.timers timer none } :=
        ⟨consistent.keyed, consistent.own, consistent.isTest⟩
      obtain ⟨timers, isCancelled⟩ := cleared.cancelWebhook workflowId deletes
      have isStep : test.step (.timeout timer deletes) =
          ({ test with timers }.deactivateWebhooks workflowId deletes).1 := by
        simpa only [TestWebhooks.step, armed] using isCancelled
      have isCondition : test.KeepsApart (.timeout timer deletes) ↔ test.EndsAlone workflowId [] deletes := by
        simp [KeepsApart, armed]
      rw [isCondition]
      exact @Consistent.ends _ consistent (.timeout timer deletes) _ _ _ armed armed isStep

/-- The tests of different workflows are independent exactly in the runs that keep them apart. -/
theorem independent_iff_keepsApart (events : List TestWebhookEvent) :
    Runs.Every step Independent new events ↔ Runs.Every step KeepsApart new events :=
  @Runs.every_iff_every_of_kept _ _ step Independent KeepsApart Consistent
    (fun _ event apart consistent => (consistent.independent_iff event).1 apart)
    (fun _ event consistent => (consistent.independent_iff event).2) new .new events

def webhookNode (workflowId path : String) : IWebhookData :=
  { httpMethod := .GET
    path
    webhookId := none
    node := "Webhook"
    workflowId
    restartWebhook := false
    isTest := false
    userId := none }

def testOf (workflowId path : String) : NeedsWebhookCall :=
  { userId := "user"
    workflowEntity := workflowId
    webhooks := [(webhookNode workflowId path, .succeeds true)]
    runData := []
    pushRef := none
    destinationNode := none
    triggerToStartFrom := none
    deletes := fun _ => true }

/-- The cancellation of one test takes the registration of the other one with it. -/
theorem not_independent_of_cancellation :
    ¬ ∀ events : List TestWebhookEvent, Runs.Every step Independent new events := by
  intro independent
  have cancelled := (independent [.needsWebhook (testOf "first" "a"), .needsWebhook (testOf "second" "b"),
    .cancelWebhook "first" fun _ => true]).2.2.1
  have stays := cancelled.keepsOthers "GET|b" (registrationOf (testOf "second" "b") (webhookNode "second" "b"))
    (by decide) (by decide)
  revert stays
  decide

end TestWebhooks

end N8n.Webhooks
