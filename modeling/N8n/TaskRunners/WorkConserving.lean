import N8n.TaskRunners.PendingRequests

/-! # Requests that wait although an offer is open

The broker matches offers and requests whenever one of them arrives.  A request
also becomes available again when a runner does not take it, and then waits for
the next arrival.
-/

namespace N8n.TaskRunners.TaskBroker

variable {Payload : Type}

/-- The request is not being accepted, and an offer of its type has not expired. -/
def Queue.LeftWaiting (queue : Queue) (request : Nat) : Prop :=
  request ∈ queue.pending ∧ ∃ object ∈ queue.requests[request]?, object.acceptInProgress = false ∧
    ∃ offer ∈ queue.offers, isUnexpired queue.now offer = true ∧ offer.taskType = object.taskType

/-- Only a request that became available again is left waiting. -/
def WorkConserving (broker : TaskBroker Payload) : Prop :=
  ∀ request, broker.queue.LeftWaiting request → request ∈ broker.availableAgain

def canGoOn : Progress Payload → Bool
  | .waitingForRunner outcome => outcome.isSome
  | .waitingForRequester outcome => outcome.isSome
  | .sendingSettings _ _ => true
  | .givenUp | .over => false

/-- Every message and every timeout so far has been processed: no call of the broker can go on. -/
def ProcessedToCompletion (broker : TaskBroker Payload) : Prop :=
  broker.suspended = [] ∧ ∀ call ∈ broker.acceptOffers, canGoOn call.progress = false

/-! ## Matching leaves no request waiting -/

section

variable {broker : TaskBroker Payload}

/-- Matching a request takes an offer away and marks the request, so that nothing new is left waiting. -/
theorem leftWaiting_of_settleRequest {request other : Nat}
    (left : (broker.settleRequest request).queue.LeftWaiting other) : broker.queue.LeftWaiting other := by
  revert left
  unfold settleRequest
  split
  · exact id
  split
  · exact id
  split
  · exact id
  · rw [queue_acceptOffer]
    rintro ⟨queued, object', found', free', offer', inside, unexpired, sameType⟩
    refine ⟨queued, object', ?_, free', offer', List.mem_of_mem_eraseP inside, unexpired, sameType⟩
    have unmarked : (broker.requests.modify request fun object => { object with acceptInProgress := true })[other]? =
        some object' := found'
    have different : request ≠ other := by
      rintro rfl
      simp only [List.getElem?_modify_eq, Option.map_eq_map, Option.map_eq_some_iff] at unmarked
      obtain ⟨_, _, rfl⟩ := unmarked
      cases free'
    rw [List.getElem?_modify_ne _ _ different] at unmarked
    exact unmarked

theorem not_leftWaiting_settleRequest (request : Nat) :
    ¬ (broker.settleRequest request).queue.LeftWaiting request := by
  unfold settleRequest
  split
  next missing =>
    rintro ⟨_, object', found', _⟩
    have found : broker.requests[request]? = some object' := found'
    rw [missing] at found
    cases found
  next object found =>
    split
    next inProgress =>
      rintro ⟨_, object', found', free, _⟩
      obtain rfl : object = object' := Option.some.inj (found.symm.trans found')
      rw [inProgress] at free
      cases free
    · split
      next none_ =>
        rintro ⟨_, object', found', _, offer, inside, _, sameType⟩
        obtain rfl : object = object' := Option.some.inj (found.symm.trans found')
        have other := List.find?_eq_none.mp none_ offer inside
        simp [sameType] at other
      · rw [queue_acceptOffer]
        rintro ⟨_, object', found', free, _⟩
        have marked : (broker.requests.modify request fun object =>
            { object with acceptInProgress := true })[request]? = some object' := found'
        simp only [List.getElem?_modify_eq, Option.map_eq_map, Option.map_eq_some_iff] at marked
        obtain ⟨_, _, rfl⟩ := marked
        cases free

theorem not_leftWaiting_settleTasks (request : Nat) : ¬ broker.settleTasks.queue.LeftWaiting request := by
  have keeps : ∀ (state : TaskBroker Payload) (other : Nat), ¬ state.queue.LeftWaiting request →
      ¬ (state.settleRequest other).queue.LeftWaiting request :=
    fun state other done left => done (leftWaiting_of_settleRequest left)
  by_cases queued : request ∈ broker.pendingTaskRequests
  · -- The loop looks at each request that was pending before, and what it has seen to stays so.
    apply Loop.foldl_establishes fun state : TaskBroker Payload => ¬ state.queue.LeftWaiting request
    · exact fun other _ state => keeps state other
    · exact ⟨request, queued, fun state => not_leftWaiting_settleRequest request⟩
  · apply Loop.foldl_preserves fun state : TaskBroker Payload => ¬ state.queue.LeftWaiting request
    · exact fun other _ state => keeps state other
    · exact fun left => queued left.1

end

/-! ## Every step keeps it -/

section

variable {broker : TaskBroker Payload}

theorem WorkConserving.of_less (conserving : broker.WorkConserving) {next : TaskBroker Payload}
    (less : ∀ request, next.queue.LeftWaiting request → broker.queue.LeftWaiting request)
    (same : next.availableAgain = broker.availableAgain) : next.WorkConserving :=
  fun request left => same ▸ conserving request (less request left)

theorem WorkConserving.of_queue (conserving : broker.WorkConserving) {next : TaskBroker Payload}
    (same : next.queue = broker.queue) : next.WorkConserving :=
  conserving.of_less (fun _ left => same ▸ left) (congrArg Queue.availableAgain same)

theorem leftWaiting_setProgress {taskId : TaskId} {progress : Progress Payload} {request : Nat} :
    (broker.setProgress taskId progress).queue.LeftWaiting request ↔ broker.queue.LeftWaiting request := Iff.rfl

theorem workConserving_settleTasks : broker.settleTasks.WorkConserving :=
  fun request left => absurd left (not_leftWaiting_settleTasks request)

theorem WorkConserving.offerNotTaken (conserving : broker.WorkConserving) (taskId : TaskId) (request : Nat) :
    (broker.offerNotTaken taskId request).WorkConserving := by
  rintro other ⟨queued, object, found, free, open_⟩
  by_cases same : request = other
  · subst same
    exact List.mem_append_right _ List.mem_cons_self
  · apply List.mem_append_left
    apply conserving other
    refine ⟨queued, object, ?_, free, open_⟩
    have unmarked : (broker.requests.modify request fun object => { object with acceptInProgress := false })[other]? =
        some object := found
    rwa [List.getElem?_modify_ne _ _ same] at unmarked

theorem WorkConserving.runnerSettled (conserving : broker.WorkConserving) (taskId : TaskId) (offer : TaskOffer)
    (request : Nat) (outcome : RunnerOutcome) :
    (broker.runnerSettled taskId offer request outcome).WorkConserving := by
  have notTaken := conserving.offerNotTaken taskId request
  cases outcome with
  | rejected => exact notTaken
  | timedOut => exact notTaken
  | deferred =>
    rintro other ⟨queued, left⟩
    rcases List.mem_append.mp queued with queued | queued
    · exact notTaken other ⟨queued, left⟩
    · rw [List.mem_singleton.mp queued]
      exact List.mem_append_right _ List.mem_cons_self
  | accepted =>
    simp only [TaskBroker.runnerSettled]
    split
    · exact conserving
    next object _ =>
      unfold offerTaken
      dsimp only
      split
      · intro other left
        rw [leftWaiting_setProgress, queue_messageRequester] at left
        have again := conserving other ⟨List.mem_of_mem_eraseP left.1, left.2⟩
        change other ∈ (queue (messageRequester _ _ _)).availableAgain
        rw [queue_messageRequester]
        exact again
      · exact conserving.of_less (fun _ left => left) rfl

theorem WorkConserving.acceptOfferGoesOn (conserving : broker.WorkConserving) (taskId : TaskId) :
    (broker.acceptOfferGoesOn taskId).WorkConserving := by
  unfold TaskBroker.acceptOfferGoesOn
  split
  · exact conserving
  next call found =>
    split
    next outcome _ => exact conserving.runnerSettled taskId call.offer call.request outcome
    next outcome settled =>
      exact conserving.of_queue (queue_requesterSettled found (by rw [settled]; rfl) outcome)
    next runnerId settings settled =>
      exact conserving.of_queue (queue_sendTaskSettings found (by rw [settled]; rfl) runnerId settings)
    all_goals exact conserving

theorem WorkConserving.onRunnerMessage (conserving : broker.WorkConserving) (runnerId : RunnerId)
    (message : RunnerMessage.ToBroker Payload) : (broker.onRunnerMessage runnerId message).WorkConserving := by
  unfold TaskBroker.onRunnerMessage
  split
  · exact conserving
  · cases message with
    | taskOffer offerId taskType validFor => exact workConserving_settleTasks
    | taskAccepted | taskRejected | taskDeferred => exact conserving.of_queue (queue_answerOffer broker _ _)
    | taskDone | taskError => exact conserving.of_queue (queue_answerTask broker _ _)
    | taskDataRequest | nodeTypesRequest | rpc => exact conserving.of_queue (queue_passToRequester broker _ _)
    | info => exact conserving

theorem WorkConserving.onRequesterMessage (conserving : broker.WorkConserving) (requesterId : RequesterId)
    (message : RequesterMessage.ToBroker Payload) :
    (broker.onRequesterMessage requesterId message).WorkConserving := by
  cases message with
  | taskRequest requestId taskType => exact workConserving_settleTasks
  | taskSettings taskId settings =>
    simp only [TaskBroker.onRequesterMessage, handleRequesterAccept]
    split
    · exact conserving.of_queue (queue_settleRequester broker taskId _)
    · exact conserving
  | taskCancel taskId reason => exact conserving.of_queue (queue_cancelTask (broker.record _) taskId reason)
  | taskDataResponse | nodeTypesResponse | rpcResponse => exact conserving.of_queue (queue_passToRunner broker _ _)

theorem WorkConserving.step (config : TaskRunnersConfig) (conserving : broker.WorkConserving)
    (event : Event Payload) : (broker.step config event).WorkConserving := by
  cases event with
  | registerRunner runnerId => exact conserving.of_queue (queue_registerRunner runnerId)
  | deregisterRunner runnerId error =>
    have same := @queue_deregisterRunner _ broker runnerId error
    apply conserving.of_less
    · intro request left
      simp only [TaskBroker.step, same] at left
      obtain ⟨queued, object, found, free, offer, inside, open_⟩ := left
      exact ⟨queued, object, found, free, offer, List.mem_of_mem_filter inside, open_⟩
    · exact congrArg Queue.availableAgain same
  | registerRequester requesterId => exact conserving.of_less (fun _ left => left) rfl
  | deregisterRequester requesterId => exact conserving.of_less (fun _ left => left) rfl
  | runnerMessage runnerId message => exact conserving.onRunnerMessage runnerId message
  | requesterMessage requesterId message => exact conserving.onRequesterMessage requesterId message
  | runnerTimedOut taskId => exact conserving.of_queue (queue_settleRunner broker taskId _)
  | requesterTimedOut taskId => exact conserving.of_queue (queue_settleRequester broker taskId _)
  | taskTimedOut taskId => exact conserving.of_queue (queue_handleTaskTimeout broker config taskId)
  | acceptOfferGoesOn taskId => exact conserving.acceptOfferGoesOn taskId
  | goesOn call => exact conserving.of_queue (queue_goOn broker config call)
  | timePasses duration =>
    -- Offers that are open later have been open before.
    apply conserving.of_less
    · rintro request ⟨queued, object, found, free, offer, inside, unexpired, sameType⟩
      refine ⟨queued, object, found, free, offer, inside, ?_, sameType⟩
      have later : isUnexpired (broker.now + duration) offer = true := unexpired
      change isUnexpired broker.now offer = true
      simp only [isUnexpired, decide_eq_true_eq] at later ⊢
      omega
    · rfl

end

/-- In every state of every run, a request is left waiting only if it became available again after offers and requests
were matched last. -/
theorem always_workConserving (config : TaskRunnersConfig) (events : List (Event Payload)) :
    Runs.Always (step config) WorkConserving new events := by
  have every : Runs.Every (step config) (fun _ _ => True) (new : TaskBroker Payload) events := by
    generalize (new : TaskBroker Payload) = broker
    induction events generalizing broker with
    | nil => trivial
    | cons event rest ih => exact ⟨trivial, ih _⟩
  have start : (new : TaskBroker Payload).WorkConserving := by
    rintro request ⟨queued, _⟩
    cases queued
  exact Runs.always_of_invariant (fun _ event _ held => held.step config event) start every

/-! A runner rejects a request while the offer of another one is open. -/

namespace TwoRunners

def config : TaskRunnersConfig := { mode := .external, taskTimeout := 60 }

def events : List (Event Unit) :=
  [.registerRunner "first", .registerRunner "second", .registerRequester "requester",
    .requesterMessage "requester" (.taskRequest "request" "javascript"),
    .runnerMessage "first" (.taskOffer 0 "javascript" 5000), .runnerMessage "second" (.taskOffer 1 "javascript" 5000),
    .runnerMessage "first" (.taskRejected 0 "No open task slots"), .acceptOfferGoesOn 0]

theorem rejected_leftWaiting : ¬ ∀ events : List (Event Unit),
    ProcessedToCompletion (events.foldl (step config) new) →
      ∀ request, ¬ (events.foldl (step config) new).queue.LeftWaiting request := by
  intro none_
  refine none_ events ⟨rfl, by decide⟩ 0 ⟨by decide, ⟨"request", "requester", "javascript", false⟩, rfl, rfl, ?_⟩
  exact ⟨⟨1, "second", "javascript", 5000, 5000000000⟩, by decide, rfl, rfl⟩

end TwoRunners

end N8n.TaskRunners.TaskBroker
