import Mathlib.Data.List.Basic
import N8n.Library.Runs

/-! # The webhook cache

`packages/cli/src/webhooks/webhook.service.ts`: the stored webhooks, and a cache
in front of the lookup of a request.  A call and the writes to the cache that it
begins are one step.
-/

namespace N8n.Webhooks

inductive IHttpRequestMethods where
  | DELETE
  | GET
  | HEAD
  | PATCH
  | POST
  | PUT
deriving DecidableEq, Repr

def IHttpRequestMethods.text : IHttpRequestMethods → String
  | DELETE => "DELETE"
  | GET => "GET"
  | HEAD => "HEAD"
  | PATCH => "PATCH"
  | POST => "POST"
  | PUT => "PUT"

structure WebhookEntity where
  workflowId : String
  webhookPath : String
  method : IHttpRequestMethods
  node : String
  webhookId : Option String
  pathLength : Option Nat
deriving DecidableEq, Repr

def segments (path : String) : List String := (path.toList.splitOn '/').map String.ofList

/-- The key under which `findCached` looks a request up. -/
def requestKey (method : IHttpRequestMethods) (path : String) : String :=
  "webhook:" ++ method.text ++ "-" ++ path

namespace WebhookEntity

def uniquePath (webhook : WebhookEntity) : String :=
  if webhook.webhookPath.toList.contains ':' then webhook.webhookId.getD "" ++ "/" ++ webhook.webhookPath
  else webhook.webhookPath

def cacheKey (webhook : WebhookEntity) : String := requestKey webhook.method webhook.uniquePath

def staticSegments (webhook : WebhookEntity) : List String :=
  (segments webhook.webhookPath).filter fun segment => segment.toList.head? ≠ some ':'

/-- The two have the same primary key. -/
def isRow (webhook row : WebhookEntity) : Bool :=
  row.webhookPath = webhook.webhookPath && row.method = webhook.method

end WebhookEntity

structure BestMatch where
  webhook : Option WebhookEntity
  maxMatches : Nat
deriving DecidableEq, Repr

/-- The body of the `reduce` of `findDynamicWebhook`. -/
def matchDynamic (requestSegments : List String) (acc : BestMatch) (dw : WebhookEntity) : BestMatch :=
  let allStaticSegmentsMatch := dw.staticSegments.all fun segment => requestSegments.contains segment
  if allStaticSegmentsMatch && dw.staticSegments.length > acc.maxMatches then
    { maxMatches := dw.staticSegments.length, webhook := some dw }
  else if dw.staticSegments.length = 0 && acc.webhook.isNone then { acc with webhook := some dw }
  else acc

/-- What the cache holds under each key. -/
abbrev WebhookCache := String → Option WebhookEntity

structure WebhookService where
  /-- The rows of the table, in the order in which it returns them. -/
  webhooks : List WebhookEntity
  cache : WebhookCache

inductive WebhookEvent where
  | storeWebhook (webhook : WebhookEntity)
  | deleteWebhooks (webhooks : List WebhookEntity)
  | deleteWorkflowWebhooks (workflowId : String)
  | findWebhook (method : IHttpRequestMethods) (path : String)
  | populateCache
  /-- The cache drops an entry on its own. -/
  | drop (key : String)
deriving DecidableEq, Repr

namespace WebhookService

def start (webhooks : List WebhookEntity) : WebhookService where
  webhooks
  cache _ := none

def findStaticWebhook (service : WebhookService) (method : IHttpRequestMethods) (path : String) :
    Option WebhookEntity :=
  service.webhooks.find? fun row => row.webhookPath = path && row.method = method

def findDynamicWebhook (service : WebhookService) (method : IHttpRequestMethods) (path : String) :
    Option WebhookEntity :=
  match segments path with
  | [] => none
  | uuidSegment :: otherSegments =>
    let dynamicWebhooks := service.webhooks.filter fun row =>
      row.webhookId = some uuidSegment && row.method = method && row.pathLength = some otherSegments.length
    (dynamicWebhooks.foldl (matchDynamic otherSegments) { webhook := none, maxMatches := 0 }).webhook

def lookup (service : WebhookService) (method : IHttpRequestMethods) (path : String) : Option WebhookEntity :=
  (service.findStaticWebhook method path).or (service.findDynamicWebhook method path)

/-- `cacheService.set`, which leaves out what is null. -/
def setCache (service : WebhookService) (key : String) (webhook : Option WebhookEntity) : WebhookService :=
  match webhook with
  | none => service
  | some webhook => { service with cache := fun other => if other = key then some webhook else service.cache other }

def findWebhook (service : WebhookService) (method : IHttpRequestMethods) (path : String) :
    Option WebhookEntity × WebhookService :=
  match service.cache (requestKey method path) with
  | some cachedWebhook => (some cachedWebhook, service)
  | none => (service.lookup method path, service.setCache (requestKey method path) (service.lookup method path))

/-- `upsert`: a row of the same method and path is updated, except for what the webhook leaves open. -/
def upsert (webhooks : List WebhookEntity) (webhook : WebhookEntity) : List WebhookEntity :=
  if webhooks.any webhook.isRow then
    webhooks.map fun row =>
      if webhook.isRow row then
        { webhook with
          webhookId := webhook.webhookId.or row.webhookId
          pathLength := webhook.pathLength.or row.pathLength }
      else row
  else webhooks ++ [webhook]

def storeWebhook (service : WebhookService) (webhook : WebhookEntity) : WebhookService :=
  { service.setCache webhook.cacheKey (some webhook) with webhooks := upsert service.webhooks webhook }

def deleteWebhooks (service : WebhookService) (webhooks : List WebhookEntity) : WebhookService where
  webhooks := service.webhooks.filter fun row => !webhooks.any fun webhook => webhook.isRow row
  cache key := if key ∈ webhooks.map WebhookEntity.cacheKey then none else service.cache key

def deleteWorkflowWebhooks (service : WebhookService) (workflowId : String) : WebhookService :=
  service.deleteWebhooks (service.webhooks.filter fun row => row.workflowId = workflowId)

/-- What `setMany` writes under a key: the last entry for it. -/
def entryFor (webhooks : List WebhookEntity) (key : String) : Option WebhookEntity :=
  webhooks.reverse.find? fun webhook => webhook.cacheKey = key

def populateCache (service : WebhookService) : WebhookService :=
  { service with cache := fun key => (entryFor service.webhooks key).or (service.cache key) }

def step (service : WebhookService) : WebhookEvent → WebhookService
  | .storeWebhook webhook => service.storeWebhook webhook
  | .deleteWebhooks webhooks => service.deleteWebhooks webhooks
  | .deleteWorkflowWebhooks workflowId => service.deleteWorkflowWebhooks workflowId
  | .findWebhook method path => (service.findWebhook method path).2
  | .populateCache => service.populateCache
  | .drop key => { service with cache := fun other => if other = key then none else service.cache other }

/-- Every request gets the answer of the lookup without the cache. -/
def Transparent (service : WebhookService) : Prop :=
  ∀ method path, (service.findWebhook method path).1 = service.lookup method path

/-- The next state has the answer of the lookup for every request that is answered from the cache, except for the
requests whose entry is written now. -/
def KeepsAnswers (service after : WebhookService) (written : String → Prop) : Prop :=
  ∀ method path, (service.cache (requestKey method path)).isSome → ¬ written (requestKey method path) →
    after.lookup method path = service.lookup method path

/-- A store and a removal change the answer of no request that is cached under a key of another webhook; and a webhook
that is written to the cache is the answer for its own path. -/
def KeepsTransparent (service : WebhookService) : WebhookEvent → Prop
  | .storeWebhook webhook =>
    service.KeepsAnswers (service.storeWebhook webhook) (fun key => key = webhook.cacheKey) ∧
      (service.storeWebhook webhook).lookup webhook.method webhook.uniquePath = some webhook
  | .deleteWebhooks webhooks =>
    service.KeepsAnswers (service.deleteWebhooks webhooks) fun key => key ∈ webhooks.map WebhookEntity.cacheKey
  | .deleteWorkflowWebhooks workflowId =>
    let webhooks := service.webhooks.filter fun row => row.workflowId = workflowId
    service.KeepsAnswers (service.deleteWebhooks webhooks) fun key => key ∈ webhooks.map WebhookEntity.cacheKey
  | .findWebhook _ _ => True
  | .populateCache => ∀ webhook, entryFor service.webhooks webhook.cacheKey = some webhook →
    service.lookup webhook.method webhook.uniquePath = some webhook
  | .drop _ => True

/-! ## The entries of the cache -/

theorem requestKey_inj {method method' : IHttpRequestMethods} {path path' : String}
    (same : requestKey method path = requestKey method' path') : method = method' ∧ path = path' := by
  have sameText := congrArg String.toList same
  simp only [requestKey, String.toList_append, List.append_assoc, List.append_cancel_left_eq] at sameText
  -- no name of a method is the beginning of another one
  cases method <;> cases method' <;> simp_all [IHttpRequestMethods.text, String.toList_inj]

theorem transparent_iff (service : WebhookService) :
    service.Transparent ↔ ∀ method path webhook, service.cache (requestKey method path) = some webhook →
      service.lookup method path = some webhook := by
  constructor
  · intro transparent method path webhook isCached
    rw [← transparent method path, findWebhook, isCached]
  · intro entries method path
    unfold findWebhook
    cases isCached : service.cache (requestKey method path) with
    | some webhook => exact (entries method path webhook isCached).symm
    | none => rfl

theorem transparent_write_iff {service after : WebhookService} (transparent : service.Transparent)
    {written : String → Prop} (others : ∀ key, ¬ written key → after.cache key = service.cache key) :
    after.Transparent ↔ service.KeepsAnswers after written ∧
      ∀ method path webhook, written (requestKey method path) → after.cache (requestKey method path) = some webhook →
        after.lookup method path = some webhook := by
  rw [transparent_iff] at transparent ⊢
  constructor
  · intro entries
    refine ⟨fun method path isCached notWritten => ?_, fun method path webhook _ => entries method path webhook⟩
    obtain ⟨webhook, isWebhook⟩ := Option.isSome_iff_exists.mp isCached
    rw [transparent method path webhook isWebhook]
    exact entries method path webhook ((others _ notWritten).trans isWebhook)
  · rintro ⟨keeps, ofWritten⟩ method path webhook isCached
    by_cases isWritten : written (requestKey method path)
    · exact ofWritten method path webhook isWritten isCached
    · rw [others _ isWritten] at isCached
      rw [keeps method path (Option.isSome_iff_exists.mpr ⟨webhook, isCached⟩) isWritten]
      exact transparent method path webhook isCached

variable {service : WebhookService}

theorem transparent_storeWebhook_iff (transparent : service.Transparent) (webhook : WebhookEntity) :
    (service.storeWebhook webhook).Transparent ↔ service.KeepsTransparent (.storeWebhook webhook) := by
  have others (key : String) (other : key ≠ webhook.cacheKey) :
      (service.storeWebhook webhook).cache key = service.cache key := if_neg other
  have own : (service.storeWebhook webhook).cache webhook.cacheKey = some webhook := if_pos rfl
  rw [transparent_write_iff transparent others]
  refine and_congr_right fun _ => ⟨fun ofWritten => ?_, fun ofOwn method path found isKey isCached => ?_⟩
  · exact ofWritten webhook.method webhook.uniquePath webhook rfl own
  · obtain ⟨rfl, rfl⟩ := requestKey_inj isKey
    obtain rfl := Option.some.inj (own.symm.trans isCached)
    exact ofOwn

theorem transparent_deleteWebhooks_iff (transparent : service.Transparent) (webhooks : List WebhookEntity) :
    (service.deleteWebhooks webhooks).Transparent ↔
      service.KeepsAnswers (service.deleteWebhooks webhooks) fun key => key ∈ webhooks.map WebhookEntity.cacheKey := by
  rw [transparent_write_iff transparent fun key notDeleted => if_neg notDeleted]
  refine and_iff_left fun method path webhook isDeleted isCached => ?_
  have deleted : (service.deleteWebhooks webhooks).cache (requestKey method path) = none := if_pos isDeleted
  rw [deleted] at isCached
  cases isCached

theorem cacheKey_of_entryFor {webhooks : List WebhookEntity} {key : String} {webhook : WebhookEntity}
    (isEntry : entryFor webhooks key = some webhook) : webhook.cacheKey = key := by
  simpa using List.find?_some isEntry

theorem transparent_populateCache_iff (transparent : service.Transparent) :
    service.populateCache.Transparent ↔ service.KeepsTransparent .populateCache := by
  have others (key : String) (notWritten : ¬ (entryFor service.webhooks key).isSome) :
      service.populateCache.cache key = service.cache key := by
    rw [Option.not_isSome_iff_eq_none] at notWritten
    simp only [populateCache, notWritten, Option.none_or]
  have written {key : String} {webhook : WebhookEntity} (isEntry : entryFor service.webhooks key = some webhook) :
      service.populateCache.cache key = some webhook := by
    simp only [populateCache, isEntry, Option.some_or]
  rw [transparent_write_iff transparent others]
  constructor
  · rintro ⟨_, ofWritten⟩ webhook isEntry
    refine ofWritten webhook.method webhook.uniquePath webhook ?_ (written isEntry)
    exact Option.isSome_iff_exists.mpr ⟨webhook, isEntry⟩
  · intro ofEntries
    refine ⟨fun _ _ _ _ => rfl, fun method path webhook isWritten isCached => ?_⟩
    obtain ⟨entry, isEntry⟩ := Option.isSome_iff_exists.mp isWritten
    obtain rfl := Option.some.inj ((written isEntry).symm.trans isCached)
    have isKey := cacheKey_of_entryFor isEntry
    obtain ⟨rfl, rfl⟩ := requestKey_inj isKey
    exact ofEntries entry isEntry

theorem transparent_findWebhook (transparent : service.Transparent) (method : IHttpRequestMethods) (path : String) :
    (service.findWebhook method path).2.Transparent := by
  unfold findWebhook
  cases service.cache (requestKey method path) with
  | some webhook => exact transparent
  | none =>
    cases answer : service.lookup method path with
    | none => exact transparent
    | some webhook =>
      have own : (service.setCache (requestKey method path) (some webhook)).cache (requestKey method path) =
          some webhook := if_pos rfl
      refine (@transparent_write_iff _ _ transparent (fun key => key = requestKey method path)
        fun key other => if_neg other).mpr ⟨fun _ _ _ _ => rfl, fun method' path' found isKey isCached => ?_⟩
      obtain ⟨rfl, rfl⟩ := requestKey_inj isKey
      obtain rfl := Option.some.inj (own.symm.trans isCached)
      exact answer

theorem transparent_drop (transparent : service.Transparent) (key : String) :
    (service.step (.drop key)).Transparent := by
  rw [transparent_iff] at transparent ⊢
  intro method path webhook isCached
  simp only [step] at isCached
  split at isCached
  · cases isCached
  · exact transparent method path webhook isCached

/-! ## The cache is transparent -/

theorem transparent_step_iff (transparent : service.Transparent) (event : WebhookEvent) :
    (service.step event).Transparent ↔ service.KeepsTransparent event := by
  cases event with
  | storeWebhook webhook => exact transparent_storeWebhook_iff transparent webhook
  | deleteWebhooks webhooks => exact transparent_deleteWebhooks_iff transparent webhooks
  | deleteWorkflowWebhooks workflowId => exact transparent_deleteWebhooks_iff transparent _
  | findWebhook method path => exact iff_of_true (transparent_findWebhook transparent method path) trivial
  | populateCache => exact transparent_populateCache_iff transparent
  | drop key => exact iff_of_true (transparent_drop transparent key) trivial

theorem transparent_start (webhooks : List WebhookEntity) : (start webhooks).Transparent :=
  fun _ _ => rfl

/-- From any stored webhooks and an empty cache on, every request gets the answer of the lookup exactly in the runs in
which no store and no removal changes the answer of a request that is cached under a key of another webhook, and every
webhook that is written under its own key is the answer for its own path. -/
theorem always_transparent_iff (webhooks : List WebhookEntity) (events : List WebhookEvent) :
    Runs.Always step Transparent (start webhooks) events ↔ Runs.Every step KeepsTransparent (start webhooks) events :=
  @Runs.always_iff_every_of_kept _ _ step KeepsTransparent (fun _ => True) Transparent (fun _ _ _ => trivial)
    (fun _ event _ transparent => transparent_step_iff transparent event) _ trivial (transparent_start webhooks) events

/-- A dynamic webhook stays in the cache under the path of a request when it is deleted, and when a better match is
stored; and so does a static one whose path has a colon within a segment. -/
theorem not_always_transparent :
    ¬ Runs.Always step Transparent
      (start [{ workflowId := "1", webhookPath := "user/:name", method := .GET, node := "Webhook",
                webhookId := some "id", pathLength := some 2 }])
      [.findWebhook .GET "id/user/5", .deleteWorkflowWebhooks "1"] ∧
    ¬ Runs.Always step Transparent
      (start [{ workflowId := "1", webhookPath := ":kind/:name", method := .GET, node := "Webhook",
                webhookId := some "id", pathLength := some 2 }])
      [.findWebhook .GET "id/user/5",
        .storeWebhook { workflowId := "1", webhookPath := "user/:name", method := .GET, node := "Webhook",
                        webhookId := some "id", pathLength := some 2 }] ∧
    ¬ Runs.Always step Transparent
      (start [{ workflowId := "1", webhookPath := "a:b", method := .GET, node := "Webhook", webhookId := none,
                pathLength := none }])
      [.findWebhook .GET "a:b", .deleteWorkflowWebhooks "1"] := by
  refine ⟨fun always => ?_, fun always => ?_, fun always => ?_⟩
  · have answer := always.final .GET "id/user/5"
    revert answer
    decide
  · have answer := always.final .GET "id/user/5"
    revert answer
    decide
  · have answer := always.final .GET "a:b"
    revert answer
    decide

end WebhookService

end N8n.Webhooks
