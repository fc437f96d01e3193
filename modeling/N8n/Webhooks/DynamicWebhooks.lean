import Mathlib.Data.List.Induction
import N8n.Library.FirstBest
import N8n.Webhooks.WebhookService

/-! # Which dynamic webhook answers a request

The lookup asks whether the static segments of a webhook occur in the request
path at all, while the dynamic segments are read by their positions
(`packages/cli/src/webhooks/live-webhooks.ts`).
-/

namespace N8n.Webhooks

open FirstBest (IsFirstBest)

/-- Every static segment of the webhook occurs somewhere in the request path. -/
def SegmentsOccur (requestSegments : List String) (webhook : WebhookEntity) : Prop :=
  ∀ segment ∈ webhook.staticSegments, segment ∈ requestSegments

/-- Every static segment of the webhook equals the segment of the request path at the same position. -/
def SegmentsMatch (requestSegments : List String) (webhook : WebhookEntity) : Prop :=
  ∀ (position : Nat) (segment : String), (segments webhook.webhookPath)[position]? = some segment →
    segment.toList.head? ≠ some ':' → requestSegments[position]? = some segment

def staticCount (webhook : WebhookEntity) : Nat := webhook.staticSegments.length

namespace WebhookService

/-- The stored webhooks with the first segment of the path as `webhookId`, the method and as many segments. -/
def dynamicWebhooks (service : WebhookService) (method : IHttpRequestMethods) (path : String) : List WebhookEntity :=
  service.webhooks.filter fun row => row.webhookId = (segments path).head? && row.method = method &&
    row.pathLength = some (segments path).tail.length

/-- The lookup is positional and most specific. -/
structure RoutesByPosition (service : WebhookService) (method : IHttpRequestMethods) (path : String) : Prop where
  none_iff : service.findDynamicWebhook method path = none ↔
    ¬ ∃ webhook ∈ service.dynamicWebhooks method path, SegmentsMatch (segments path).tail webhook
  matching : ∀ webhook, service.findDynamicWebhook method path = some webhook →
    webhook ∈ service.dynamicWebhooks method path ∧ SegmentsMatch (segments path).tail webhook
  mostSpecific : ∀ webhook, service.findDynamicWebhook method path = some webhook →
    ∀ other ∈ service.dynamicWebhooks method path, SegmentsMatch (segments path).tail other →
      staticCount other ≤ staticCount webhook

/-- Of the webhooks whose static segments occur in the path, the first one with the most of them has each at its own
position. -/
def MostSpecificInPlace (service : WebhookService) (method : IHttpRequestMethods) (path : String) : Prop :=
  ∀ webhook, IsFirstBest (SegmentsOccur (segments path).tail) staticCount
    (service.dynamicWebhooks method path) webhook →
    SegmentsMatch (segments path).tail webhook

end WebhookService

/-! ## What the lookup finds -/

theorem segments_ne_nil (path : String) : segments path ≠ [] := by
  rw [segments, ne_eq, List.map_eq_nil_iff]
  exact List.splitOnP_ne_nil _ _

variable {requestSegments : List String}

theorem SegmentsMatch.occur {webhook : WebhookEntity} (inPlace : SegmentsMatch requestSegments webhook) :
    SegmentsOccur requestSegments webhook := by
  intro segment isStatic
  obtain ⟨inPath, notDynamic⟩ := List.mem_filter.mp isStatic
  obtain ⟨position, atPosition⟩ := List.mem_iff_getElem?.mp inPath
  exact List.mem_of_getElem? (inPlace position segment atPosition (of_decide_eq_true notDynamic))

/-- What the reduction knows of the webhooks it has seen: that none fits, or the first best one. -/
def BestMatch.Seen (requestSegments : List String) (seen : List WebhookEntity) (acc : BestMatch) : Prop :=
  (acc.webhook = none ∧ acc.maxMatches = 0 ∧ ∀ webhook ∈ seen, ¬ SegmentsOccur requestSegments webhook) ∨
  ∃ webhook, acc.webhook = some webhook ∧ acc.maxMatches = staticCount webhook ∧
    IsFirstBest (SegmentsOccur requestSegments) staticCount seen webhook

theorem all_contains_iff {webhook : WebhookEntity} :
    (webhook.staticSegments.all fun segment => requestSegments.contains segment) = true ↔
      SegmentsOccur requestSegments webhook := by
  simp [SegmentsOccur]

theorem BestMatch.Seen.turn {seen : List WebhookEntity} {acc : BestMatch} (known : acc.Seen requestSegments seen)
    (webhook : WebhookEntity) :
    (matchDynamic requestSegments acc webhook).Seen requestSegments (seen ++ [webhook]) := by
  rw [matchDynamic]
  obtain ⟨noWebhook, noMatches, noneOccur⟩ | ⟨best, isWebhook, isCount, isBest⟩ := known
  · split
    next found =>
      simp only [Bool.and_eq_true, all_contains_iff, decide_eq_true_eq] at found
      exact .inr ⟨webhook, rfl, rfl, FirstBest.isFirstBest_append found.1 fun other member occur =>
        absurd occur (noneOccur other member)⟩
    next notFound =>
      simp only [Bool.and_eq_true, all_contains_iff, decide_eq_true_eq] at notFound
      split
      next onlyDynamic =>
        simp only [Bool.and_eq_true, decide_eq_true_eq] at onlyDynamic
        have empty : webhook.staticSegments = [] := List.length_eq_zero_iff.mp onlyDynamic.1
        have occur : SegmentsOccur requestSegments webhook := by simp [SegmentsOccur, empty]
        exact .inr ⟨webhook, rfl, by rw [noMatches, staticCount, onlyDynamic.1],
          FirstBest.isFirstBest_append occur fun other member occur => absurd occur (noneOccur other member)⟩
      next hasStatic =>
        refine .inl ⟨noWebhook, noMatches, fun other member occur => ?_⟩
        obtain before | now := List.mem_append.mp member
        · exact noneOccur other before occur
        · obtain rfl := List.mem_singleton.mp now
          simp only [noWebhook, Option.isNone_none, Bool.and_true, decide_eq_true_eq] at hasStatic
          rw [noMatches] at notFound
          exact notFound ⟨occur, Nat.pos_of_ne_zero hasStatic⟩
  · split
    next found =>
      simp only [Bool.and_eq_true, all_contains_iff, decide_eq_true_eq] at found
      refine .inr ⟨webhook, rfl, rfl, FirstBest.isFirstBest_append found.1 fun other member occur => ?_⟩
      exact (isBest.le member occur).trans_lt (isCount ▸ found.2)
    next notBetter =>
      simp only [Bool.and_eq_true, all_contains_iff, decide_eq_true_eq] at notBetter
      rw [isWebhook, Option.isNone_some, Bool.and_false, if_neg Bool.false_ne_true]
      refine .inr ⟨best, isWebhook, isCount, isBest.append fun occur => ?_⟩
      exact Nat.le_of_not_lt fun more => notBetter ⟨occur, isCount ▸ more⟩

theorem foldl_matchDynamic (requestSegments : List String) (webhooks : List WebhookEntity) :
    (webhooks.foldl (matchDynamic requestSegments) { webhook := none, maxMatches := 0 }).Seen requestSegments
      webhooks := by
  induction webhooks using List.reverseRecOn with
  | nil => exact .inl ⟨rfl, rfl, fun _ member => absurd member List.not_mem_nil⟩
  | append_singleton before webhook ih =>
    rw [List.foldl_append, List.foldl_cons, List.foldl_nil]
    exact ih.turn webhook

namespace WebhookService

/-- The lookup finds the first best of the webhooks whose static segments occur in the path. -/
theorem findDynamicWebhook_cases (service : WebhookService) (method : IHttpRequestMethods) (path : String) :
    (service.findDynamicWebhook method path = none ∧
      ∀ webhook ∈ service.dynamicWebhooks method path, ¬ SegmentsOccur (segments path).tail webhook) ∨
    ∃ webhook, service.findDynamicWebhook method path = some webhook ∧
      IsFirstBest (SegmentsOccur (segments path).tail) staticCount (service.dynamicWebhooks method path) webhook := by
  rw [findDynamicWebhook, dynamicWebhooks]
  cases isSplit : segments path with
  | nil => exact absurd isSplit (segments_ne_nil path)
  | cons uuidSegment otherSegments =>
    simp only [List.head?_cons, List.tail_cons]
    obtain ⟨noWebhook, _, noneOccur⟩ | ⟨best, isWebhook, _, isBest⟩ := foldl_matchDynamic otherSegments
      (service.webhooks.filter fun row =>
        row.webhookId = some uuidSegment && row.method = method && row.pathLength = some otherSegments.length)
    · exact .inl ⟨noWebhook, noneOccur⟩
    · exact .inr ⟨best, isWebhook, isBest⟩

/-- The lookup is positional exactly when the most specific webhook whose segments occur has them in place. -/
theorem routesByPosition_iff (service : WebhookService) (method : IHttpRequestMethods) (path : String) :
    service.RoutesByPosition method path ↔ service.MostSpecificInPlace method path := by
  obtain ⟨notFound, noneOccur⟩ | ⟨webhook, found, isBest⟩ := service.findDynamicWebhook_cases method path
  · have inPlace : service.MostSpecificInPlace method path := fun webhook isBest =>
      absurd isBest.passes (noneOccur webhook isBest.mem)
    refine iff_of_true ⟨?_, ?_, ?_⟩ inPlace
    · refine iff_of_true notFound ?_
      intro ⟨webhook, member, matching⟩
      exact noneOccur webhook member matching.occur
    · intro webhook found
      exact absurd (notFound.symm.trans found) (Option.some_ne_none webhook).symm
    · intro webhook found
      exact absurd (notFound.symm.trans found) (Option.some_ne_none webhook).symm
  · constructor
    · intro routes other isBest'
      obtain rfl := isBest.unique isBest'
      exact (routes.matching webhook found).2
    · intro inPlace
      have matching := inPlace webhook isBest
      refine ⟨?_, ?_, ?_⟩
      · refine iff_of_false (by rw [found]; exact Option.some_ne_none webhook) ?_
        exact not_not.mpr ⟨webhook, isBest.mem, matching⟩
      · intro other isOther
        obtain rfl := Option.some.inj (found.symm.trans isOther)
        exact ⟨isBest.mem, matching⟩
      · intro other isOther third member matching'
        obtain rfl := Option.some.inj (found.symm.trans isOther)
        exact isBest.le member matching'.occur

/-- A service with the one webhook `user/:id/posts`. -/
def postsOfUser : WebhookService :=
  start [⟨"workflow", "user/:id/posts", .GET, "Webhook", some "uuid", some 3⟩]

theorem not_routesByPosition_swapped : ¬ postsOfUser.RoutesByPosition .GET "uuid/posts/123/user" := by
  intro routes
  have found : postsOfUser.findDynamicWebhook .GET "uuid/posts/123/user" =
      some ⟨"workflow", "user/:id/posts", .GET, "Webhook", some "uuid", some 3⟩ := by decide +kernel
  have first := (routes.matching _ found).2 0 "user" (by decide +kernel) (by decide)
  have second : ("uuid/posts/123/user" |> segments).tail[0]? = some "posts" := by decide +kernel
  rw [second] at first
  exact absurd first (by decide)

end WebhookService

end N8n.Webhooks
