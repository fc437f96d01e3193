import N8n.Library.FirstCome
import N8n.Library.SkippedTurns
import N8n.TaskRunners.WorkConserving

/-! # Which offers and requests the broker matches

One call of `settleTasks` matches the offers that have not expired with the
requests that are not being accepted, type by type in the order of both lists.
-/

namespace N8n.TaskRunners.TaskBroker

variable {Payload : Type}

/-- The pending offers that have not expired, with their positions. -/
def unexpiredOffers (broker : TaskBroker Payload) : List (TaskOffer × Nat) :=
  broker.pendingTaskOffers.zipIdx.filter fun entry => isUnexpired broker.now entry.1

def taskTypeOf (broker : TaskBroker Payload) (request : Nat) : Option String :=
  broker.requests[request]?.map TaskRequest.taskType

def isAvailable (broker : TaskBroker Payload) (request : Nat) : Bool :=
  broker.requests[request]?.any fun object => !object.acceptInProgress

/-- The pending requests that are not being accepted, each where it stands first. -/
def availableRequests (broker : TaskBroker Payload) : List Nat :=
  (broker.pendingTaskRequests.filter broker.isAvailable).eraseDups

/-- The pairs of the unexpired offers and the available requests, first come, first served, and the offers that are
left. -/
def served (broker : TaskBroker Payload) : List ((TaskOffer × Nat) × Nat) × List (TaskOffer × Nat) :=
  FirstCome.serve (fun entry => some entry.1.taskType) broker.taskTypeOf broker.unexpiredOffers broker.availableRequests

/-- A call that `acceptOffer` has started. -/
def startedCall (pair : (TaskOffer × Nat) × Nat) : AcceptOffer Payload := ⟨pair.1.1, pair.2, .waitingForRunner none⟩

/-- The broker has started to accept the pairs of offers and requests. -/
structure Matches (broker next : TaskBroker Payload) (pairs : List ((TaskOffer × Nat) × Nat)) : Prop where
  started : next.acceptOffers = broker.acceptOffers ++ pairs.map startedCall
  offersOnce : (pairs.map fun pair => pair.1.2).Nodup
  requestsOnce : (pairs.map Prod.snd).Nodup
  sameType : ∀ pair ∈ pairs, broker.taskTypeOf pair.2 = some pair.1.1.taskType
  offers : ∀ pair ∈ pairs, pair.1 ∈ broker.unexpiredOffers
  requests : ∀ pair ∈ pairs, pair.2 ∈ broker.availableRequests
  /-- The k-th request of a type gets the k-th offer of the type. -/
  inOrder : ∀ taskType, (pairs.filter fun pair => pair.1.1.taskType = taskType) =
    (broker.unexpiredOffers.filter fun entry => entry.1.taskType = taskType).zip
      (broker.availableRequests.filter fun request => broker.taskTypeOf request = some taskType)
  kept : next.pendingTaskOffers =
    (broker.unexpiredOffers.filter fun entry => entry ∉ pairs.map Prod.fst).map Prod.fst
  complete : ∀ request ∈ next.availableRequests, ∀ offer ∈ next.pendingTaskOffers,
    next.taskTypeOf request ≠ some offer.taskType

/-! ## One request -/

section

variable {broker : TaskBroker Payload}

/-- The request does not get an offer: it is being accepted, or there is no offer of its type. -/
def Idle (request : Nat) (broker : TaskBroker Payload) : Prop :=
  broker.isAvailable request = true →
    ∀ offer ∈ broker.pendingTaskOffers, broker.taskTypeOf request ≠ some offer.taskType

structure Takes (broker next : TaskBroker Payload) (request : Nat) (offer : TaskOffer) : Prop where
  available : broker.isAvailable request = true
  found : (broker.pendingTaskOffers.find? fun offer => some offer.taskType = broker.taskTypeOf request) = some offer
  offers : next.pendingTaskOffers =
    broker.pendingTaskOffers.eraseP fun offer => some offer.taskType = broker.taskTypeOf request
  requests : next.requests = broker.requests.modify request fun object => { object with acceptInProgress := true }
  started : next.acceptOffers = broker.acceptOffers ++ [⟨offer, request, .waitingForRunner none⟩]
  now : next.now = broker.now

theorem messageRunner_frame (broker : TaskBroker Payload) (runnerId : RunnerId)
    (message : BrokerMessage.ToRunner Payload) :
    (broker.messageRunner runnerId message).pendingTaskOffers = broker.pendingTaskOffers ∧
      (broker.messageRunner runnerId message).requests = broker.requests ∧
      (broker.messageRunner runnerId message).acceptOffers = broker.acceptOffers ∧
      (broker.messageRunner runnerId message).now = broker.now := by
  rw [messageRunner]
  split <;> exact ⟨rfl, rfl, rfl, rfl⟩

/-- What the broker does for a request: nothing when it is idle, and otherwise it takes an offer. -/
theorem settleRequest_cases (broker : TaskBroker Payload) (request : Nat) :
    (Idle request broker ∧ broker.settleRequest request = broker) ∨
    ∃ offer, broker.Takes (broker.settleRequest request) request offer := by
  rw [settleRequest]
  split
  next missing => exact .inl ⟨fun available => by simp [isAvailable, missing] at available, rfl⟩
  next object found =>
    have isType : broker.taskTypeOf request = some object.taskType := by rw [taskTypeOf, found]; rfl
    split
    next inProgress => exact .inl ⟨fun available => by simp [isAvailable, found, inProgress] at available, rfl⟩
    next free =>
      split
      next none =>
        refine .inl ⟨fun _ offer member same => ?_, rfl⟩
        have other := List.find?_eq_none.mp none offer member
        rw [isType, Option.some.injEq] at same
        exact other (decide_eq_true same.symm)
      next offer first =>
        obtain ⟨offers, requests, started, now⟩ := messageRunner_frame { broker.setAcceptInProgress request true with
            pendingTaskOffers := broker.pendingTaskOffers.eraseP fun offer => offer.taskType = object.taskType
            acceptOffers := broker.acceptOffers ++ [⟨offer, request, .waitingForRunner none⟩]
            runnerAcceptRejects := broker.runnerAcceptRejects ++ [broker.acceptOffers.length] }
          offer.runnerId (.taskOfferAccept offer.offerId broker.acceptOffers.length)
        refine .inr ⟨offer, by simp [isAvailable, found, free], ?_, ?_, requests, started, now⟩
        · simpa only [isType, Option.some.injEq] using first
        · simp only [isType, Option.some.injEq]
          exact offers

variable {next : TaskBroker Payload} {request : Nat} {offer : TaskOffer}

theorem Takes.taskTypeOf (takes : broker.Takes next request offer) (other : Nat) :
    next.taskTypeOf other = broker.taskTypeOf other := by
  rw [TaskBroker.taskTypeOf, TaskBroker.taskTypeOf, takes.requests]
  by_cases same : request = other
  · subst same
    rw [List.getElem?_modify_eq]
    cases broker.requests[request]? <;> rfl
  · rw [List.getElem?_modify_ne _ _ same]

theorem Takes.isAvailable_other {request other : Nat} (takes : broker.Takes next request offer)
    (different : request ≠ other) :
    next.isAvailable other = broker.isAvailable other := by
  rw [isAvailable, isAvailable, takes.requests, List.getElem?_modify_ne _ _ different]

theorem Takes.not_isAvailable (takes : broker.Takes next request offer) : next.isAvailable request = false := by
  rw [isAvailable, takes.requests, List.getElem?_modify_eq]
  cases broker.requests[request]? <;> rfl

theorem idle_settleRequest (broker : TaskBroker Payload) (request : Nat) :
    Idle request (broker.settleRequest request) := by
  obtain ⟨idle, same⟩ | ⟨offer, takes⟩ := broker.settleRequest_cases request
  · rwa [same]
  · intro available
    rw [takes.not_isAvailable] at available
    cases available

theorem Idle.settleRequest (idle : Idle request broker) (other : Nat) :
    Idle request (broker.settleRequest other) := by
  obtain ⟨_, same⟩ | ⟨offer, takes⟩ := broker.settleRequest_cases other
  · rwa [same]
  · by_cases again : other = request
    · subst again
      exact idle_settleRequest broker other
    · intro available offer' member
      rw [takes.isAvailable_other again] at available
      rw [takes.taskTypeOf]
      exact idle available offer' (List.mem_of_mem_eraseP (takes.offers ▸ member))

theorem Idle.skipped (idle : Idle request broker) : broker.settleRequest request = broker := by
  obtain ⟨_, same⟩ | ⟨offer, takes⟩ := broker.settleRequest_cases request
  · exact same
  · have isType : some offer.taskType = broker.taskTypeOf request := by simpa using List.find?_some takes.found
    exact absurd isType.symm (idle takes.available offer (List.mem_of_find?_eq_some takes.found))

/-! ## All requests -/

/-- The loop over requests that are all available serves them first come, first served. -/
theorem foldl_settleRequest {entries : List (TaskOffer × Nat)} {requests : List Nat}
    (offersAre : broker.pendingTaskOffers = entries.map Prod.fst) (nodup : requests.Nodup)
    (available : ∀ request ∈ requests, broker.isAvailable request = true) :
    (requests.foldl settleRequest broker).acceptOffers = broker.acceptOffers ++
        (FirstCome.serve (fun entry => some entry.1.taskType) broker.taskTypeOf entries requests).1.map startedCall ∧
      (requests.foldl settleRequest broker).pendingTaskOffers =
        (FirstCome.serve (fun entry => some entry.1.taskType) broker.taskTypeOf entries requests).2.map Prod.fst := by
  induction requests generalizing broker entries with
  | nil => exact ⟨(List.append_nil _).symm, offersAre⟩
  | cons request rest ih =>
    obtain ⟨fresh, nodupRest⟩ := List.nodup_cons.mp nodup
    have availableRest : ∀ request ∈ rest, broker.isAvailable request = true := fun other member =>
      available other (List.mem_cons_of_mem _ member)
    have first : (entries.find? fun entry => some entry.1.taskType = broker.taskTypeOf request).map Prod.fst =
        broker.pendingTaskOffers.find? fun offer => some offer.taskType = broker.taskTypeOf request := by
      rw [offersAre, List.find?_map]
      rfl
    rw [List.foldl_cons]
    obtain ⟨idle, same⟩ | ⟨offer, takes⟩ := broker.settleRequest_cases request
    · have none : entries.find? (fun entry => some entry.1.taskType = broker.taskTypeOf request) = none := by
        rw [← Option.map_eq_none_iff, first, List.find?_eq_none]
        intro offer member isType
        exact idle (available request List.mem_cons_self) offer member (of_decide_eq_true isType).symm
      rw [same, FirstCome.serve_none none]
      exact ih offersAre nodupRest availableRest
    · rw [takes.found] at first
      obtain ⟨entry, found, rfl⟩ := Option.map_eq_some_iff.mp first
      obtain ⟨front, back, _, erased, _⟩ := FirstCome.find?_split found
      have offersLeft : (broker.settleRequest request).pendingTaskOffers = (front ++ back).map Prod.fst := by
        rw [takes.offers, offersAre, List.eraseP_map, ← erased]
        rfl
      have availableNext : ∀ other ∈ rest, (broker.settleRequest request).isAvailable other = true := by
        intro other member
        rw [takes.isAvailable_other fun same => fresh (same ▸ member)]
        exact availableRest other member
      have sameTypes : (broker.settleRequest request).taskTypeOf = broker.taskTypeOf := funext takes.taskTypeOf
      obtain ⟨started, left⟩ := ih offersLeft nodupRest availableNext
      rw [FirstCome.serve_some erased found, started, left, takes.started, sameTypes, List.append_assoc]
      exact ⟨rfl, rfl⟩

theorem now_settleRequest (broker : TaskBroker Payload) (request : Nat) :
    (broker.settleRequest request).now = broker.now := by
  obtain ⟨_, same⟩ | ⟨offer, takes⟩ := broker.settleRequest_cases request
  · rw [same]
  · exact takes.now

theorem now_settleTasks (broker : TaskBroker Payload) : broker.settleTasks.now = broker.now := by
  rw [settleTasks]
  apply Loop.foldl_preserves fun state : TaskBroker Payload => state.now = broker.now
  · intro request _ state same
    rw [now_settleRequest, same]
  · rfl

theorem map_unexpiredOffers (broker : TaskBroker Payload) :
    broker.unexpiredOffers.map Prod.fst = broker.pendingTaskOffers.filter (isUnexpired broker.now) := by
  rw [unexpiredOffers]
  calc (broker.pendingTaskOffers.zipIdx.filter fun entry => isUnexpired broker.now entry.1).map Prod.fst
      = (broker.pendingTaskOffers.zipIdx.map Prod.fst).filter (isUnexpired broker.now) := by
        rw [List.filter_map]
        rfl
    _ = broker.pendingTaskOffers.filter (isUnexpired broker.now) := by rw [List.zipIdx_map_fst]

theorem settleTasks_serves (broker : TaskBroker Payload) :
    broker.settleTasks.acceptOffers = broker.acceptOffers ++ broker.served.1.map startedCall ∧
      broker.settleTasks.pendingTaskOffers = broker.served.2.map Prod.fst := by
  have keeps : ∀ (state : TaskBroker Payload) (request other : Nat), Idle request state →
      Idle request (state.settleRequest other) := fun state request other idle => idle.settleRequest other
  have skips : ∀ (state : TaskBroker Payload) (request : Nat), Idle request state →
      state.settleRequest request = state :=
    fun state request idle => idle.skipped
  have unavailable : ∀ request ∈ broker.pendingTaskRequests, broker.isAvailable request = false →
      Idle request { broker.expireTasks with availableAgain := [] } := by
    intro request _ notAvailable available
    exact absurd (notAvailable.symm.trans available) Bool.false_ne_true
  have settled : broker.settleTasks =
      broker.availableRequests.foldl settleRequest { broker.expireTasks with availableAgain := [] } := by
    rw [settleTasks, availableRequests]
    exact (SkippedTurns.foldl_filter keeps skips unavailable).trans
      (SkippedTurns.foldl_eraseDups idle_settleRequest keeps skips _ _)
  rw [settled]
  apply foldl_settleRequest
  · exact (map_unexpiredOffers broker).symm
  · exact SkippedTurns.nodup_eraseDups _
  · intro request member
    exact (List.mem_filter.mp (List.mem_eraseDups.mp member)).2

theorem settleTasks_complete (broker : TaskBroker Payload) (member : request ∈ broker.settleTasks.availableRequests)
    (isLeft : offer ∈ broker.settleTasks.pendingTaskOffers) (unexpired : isUnexpired broker.now offer = true) :
    broker.settleTasks.taskTypeOf request ≠ some offer.taskType := by
  intro sameType
  obtain ⟨isPending, available⟩ := List.mem_filter.mp (List.mem_eraseDups.mp member)
  obtain ⟨object, found, isType⟩ := Option.map_eq_some_iff.mp sameType
  rw [isAvailable, found, Option.any_some, Bool.not_eq_true'] at available
  rw [← now_settleTasks] at unexpired
  exact not_leftWaiting_settleTasks request ⟨isPending, object, found, available, offer, isLeft, unexpired, isType.symm⟩

theorem settleTasks_matches (broker : TaskBroker Payload) : ∃ pairs, Matches broker broker.settleTasks pairs := by
  obtain ⟨started, left⟩ := broker.settleTasks_serves
  have entriesOnce : (broker.pendingTaskOffers.zipIdx.map Prod.snd).Nodup := by
    rw [List.zipIdx_map_snd]
    exact List.nodup_range'
  have offersOnce : broker.unexpiredOffers.Nodup := (entriesOnce.of_map _).filter _
  obtain ⟨usedOnce, inside, kept⟩ := FirstCome.nodup_and_left_eq (fun entry => some entry.1.taskType) broker.taskTypeOf
    offersOnce broker.availableRequests
  have inTurn := FirstCome.requests_sublist (fun entry => some entry.1.taskType) broker.taskTypeOf
    broker.unexpiredOffers broker.availableRequests
  rw [← served] at usedOnce inside kept inTurn
  refine ⟨broker.served.1, started, ?_, inTurn.nodup (SkippedTurns.nodup_eraseDups _), ?_, ?_, ?_, ?_, ?_, ?_⟩
  · -- the position of an entry tells its offer
    have positions : ∀ first ∈ broker.served.1.map Prod.fst, ∀ second ∈ broker.served.1.map Prod.fst,
        first.2 = second.2 → first = second := by
      intro first insideFirst second insideSecond
      exact List.inj_on_of_nodup_map entriesOnce (List.mem_of_mem_filter (inside first insideFirst))
        (List.mem_of_mem_filter (inside second insideSecond))
    have once := usedOnce.map_on positions
    rwa [List.map_map] at once
  · intro pair member
    exact FirstCome.kind_eq member
  · intro pair member
    exact inside pair.1 (List.mem_map_of_mem member)
  · intro pair member
    exact inTurn.subset (List.mem_map_of_mem member)
  · intro taskType
    have ofKind := (FirstCome.serve_kind (fun entry => some entry.1.taskType) broker.taskTypeOf broker.unexpiredOffers
      broker.availableRequests (some taskType)).1
    simp only [Option.some.injEq] at ofKind
    exact ofKind
  · rw [left, kept]
    exact congrArg _ (List.filter_congr fun _ _ => decide_eq_decide.mpr Iff.rfl)
  · intro request member offer isLeft
    have unexpired : isUnexpired broker.now offer = true := by
      rw [left, kept] at isLeft
      obtain ⟨entry, isEntry, rfl⟩ := List.mem_map.mp isLeft
      exact (List.mem_filter.mp (List.mem_of_mem_filter isEntry)).2
    exact broker.settleTasks_complete member isLeft unexpired

end

def expiredOffer : TaskBroker Unit :=
  { new with pendingTaskOffers := [⟨0, "runner", "javascript", 5000, 5000⟩], now := 6000 }

/-- The offer that has expired is not used, and not kept either. -/
theorem expiredOffer_not_kept :
    expiredOffer.settleTasks.acceptOffers = [] ∧
      ¬ expiredOffer.pendingTaskOffers.Sublist expiredOffer.settleTasks.pendingTaskOffers := by
  decide

end N8n.TaskRunners.TaskBroker
