import N8n.TaskRunners.FinalAnswers

/-! # Where a request is

A request of a requester that stays connected is pending until a runner has
taken a task for it; the task is registered until it is answered, or cancelled
by its requester.
-/

namespace N8n.TaskRunners.TaskBroker

variable {Payload : Type}

inductive Place where
  | pending
  | registered
  | answered
  | cancelled
deriving DecidableEq, Repr

def IsCallFor (broker : TaskBroker Payload) (taskId : TaskId) (request : Nat) : Prop :=
  ∃ call ∈ broker.acceptOffers[taskId]?, call.request = request

/-- The request is at this place.  As long as the send of its answer is awaited a task is still registered. -/
def IsAt (broker : TaskBroker Payload) (request : Nat) : Place → Prop
  | .pending => request ∈ broker.pendingTaskRequests
  | .registered => ∃ taskId, broker.IsCallFor taskId request ∧ broker.tasks.get? taskId ≠ none
  | .answered => ∃ taskId, broker.IsCallFor taskId request ∧ broker.tasks.get? taskId = none ∧
    broker.log.any (isAnswer taskId) = true
  | .cancelled => ∃ taskId, broker.IsCallFor taskId request ∧ ∃ object ∈ broker.requests[request]?,
    .cancel object.requesterId taskId true ∈ broker.log

/-- Every request of a requester that has stayed connected is at exactly one place. -/
def AtOnePlace (broker : TaskBroker Payload) : Prop :=
  ∀ request ∈ broker.stillConnected, ∃ place, broker.IsAt request place ∧
    ∀ other, broker.IsAt request other → other = place

/-- A step in which nothing happens that loses a request or puts it at two places. -/
structure LosesNothing (broker : TaskBroker Payload) (event : Event Payload) : Prop where
  newRequestId : NewRequestId broker event
  notDeferred : ¬ GoesOnDeferred broker event
  /-- No requester is too late with its settings. -/
  settingsInTime : ∀ taskId, ∀ task ∈ broker.tasks.get? taskId, task.requesterId ∈ broker.requesters →
    ¬ RequesterGaveUp broker taskId event
  /-- A registered task is cancelled by its own requester only, and not while its answer is being sent. -/
  ownCancel : ∀ requesterId taskId reason, event = .requesterMessage requesterId (.taskCancel taskId reason) →
    ∀ task ∈ broker.tasks.get? taskId, requesterId = task.requesterId ∧ .finalAnswer taskId ∉ broker.suspended

/-! ## The requesters of the requests -/

namespace Queue

def requesterId (queue : Queue) (request : Nat) : Option RequesterId :=
  queue.requests[request]?.map TaskRequest.requesterId

def Connected (queue : Queue) : Prop :=
  ∀ request ∈ queue.stillConnected, ∃ requesterId ∈ queue.requesters, queue.requesterId request = some requesterId

structure Later (queue next : Queue) : Prop where
  ids : ∀ request requesterId, queue.requesterId request = some requesterId →
    next.requesterId request = some requesterId
  older : ∀ request ∈ next.stillConnected, request < queue.requests.length → request ∈ queue.stillConnected
  longer : queue.requests.length ≤ next.requests.length
  connected : queue.Connected → next.Connected

section

variable {queue next last : Queue}

theorem Later.refl (queue : Queue) : queue.Later queue := ⟨fun _ _ => id, fun _ still _ => still, Nat.le_refl _, id⟩

theorem Later.trans (first : queue.Later next) (second : next.Later last) : queue.Later last where
  ids := fun request requesterId same => second.ids request requesterId (first.ids request requesterId same)
  older := fun request still inside =>
    first.older request (second.older request still (Nat.lt_of_lt_of_le inside first.longer)) inside
  longer := Nat.le_trans first.longer second.longer
  connected := fun connected => second.connected (first.connected connected)

theorem Later.of_same (requesterIds : next.requesterId = queue.requesterId)
    (length : next.requests.length = queue.requests.length) (requesters : next.requesters = queue.requesters)
    (stillConnected : next.stillConnected = queue.stillConnected) : queue.Later next where
  ids := by
    rw [requesterIds]
    exact fun _ _ => id
  older := by
    rw [stillConnected]
    exact fun _ still _ => still
  longer := Nat.le_of_eq length.symm
  connected := by
    unfold Connected
    rw [stillConnected, requesters, requesterIds]
    exact id

theorem Later.of_eq (same : next = queue) : queue.Later next := same ▸ Later.refl queue

theorem later_mark (request : Nat) (acceptInProgress : Bool) : queue.Later (queue.mark request acceptInProgress) := by
  apply Later.of_same _ (length_mark request acceptInProgress) rfl rfl
  funext other
  unfold requesterId mark
  rw [List.getElem?_modify]
  split <;> cases queue.requests[other]? <;> rfl

end

end Queue

section

variable {broker : TaskBroker Payload}

theorem later_settleRequest (request : Nat) : broker.queue.Later (broker.settleRequest request).queue := by
  unfold settleRequest
  split
  · exact .refl _
  · split
    · exact .refl _
    · split
      · exact .refl _
      · rw [queue_acceptOffer]
        have marked := @Queue.later_mark broker.queue request true
        exact marked.trans (.of_same rfl rfl rfl rfl)

theorem later_settleTasks : broker.queue.Later broker.settleTasks.queue := by
  apply Loop.foldl_preserves fun state : TaskBroker Payload => broker.queue.Later state.queue
  · exact fun request _ state later => later.trans (later_settleRequest request)
  · exact .of_same rfl rfl rfl rfl

theorem later_taskRequested (request : TaskRequest) : broker.queue.Later (broker.taskRequested request).queue := by
  refine Queue.Later.trans ?_ later_settleTasks
  constructor
  -- The new request stands behind the old ones, so that these keep their numbers.
  · intro other requesterId same
    have inside : other < broker.requests.length := by
      obtain ⟨object, found, _⟩ := Option.map_eq_some_iff.mp same
      exact (List.getElem?_eq_some_iff.mp found).1
    unfold Queue.requesterId at *
    change Option.map _ (broker.requests ++ [request])[other]? = _
    rwa [List.getElem?_append_left inside]
  · intro other still inside
    have old : other < broker.requests.length := inside
    change other ∈ ite _ _ _ at still
    split at still
    · rcases List.mem_append.mp still with still | isNew
      · exact still
      · have same := List.mem_singleton.mp isNew
        omega
    · exact still
  · change broker.requests.length ≤ (broker.requests ++ [request]).length
    simp
  · intro connected other still
    -- The new request belongs to a requester that is connected now.
    have earlier : other ∈ broker.stillConnected → ∃ requesterId ∈ broker.requesters,
        (broker.requests ++ [request])[other]?.map TaskRequest.requesterId = some requesterId := by
      intro still
      obtain ⟨requesterId, inside, same⟩ := connected other still
      obtain ⟨object, found, _⟩ := Option.map_eq_some_iff.mp same
      have old : other < broker.requests.length := (List.getElem?_eq_some_iff.mp found).1
      refine ⟨requesterId, inside, ?_⟩
      rwa [List.getElem?_append_left old]
    change other ∈ ite _ _ _ at still
    split at still
    next inside =>
      rcases List.mem_append.mp still with still | isNew
      · exact earlier still
      · rw [List.mem_singleton.mp isNew]
        exact ⟨request.requesterId, inside, by simp [Queue.requesterId, queue]⟩
    · exact earlier still

theorem later_runnerSettled (taskId : TaskId) (offer : TaskOffer) (request : Nat) (outcome : RunnerOutcome) :
    broker.queue.Later (broker.runnerSettled taskId offer request outcome).queue := by
  have notTaken : broker.queue.Later (broker.offerNotTaken taskId request).queue :=
    (@Queue.later_mark broker.queue request false).trans (.of_same rfl rfl rfl rfl)
  cases outcome with
  | rejected => exact notTaken
  | timedOut => exact notTaken
  | deferred => exact notTaken.trans (.of_same rfl rfl rfl rfl)
  | accepted =>
    simp only [runnerSettled]
    split
    · exact .refl _
    next object _ =>
      unfold offerTaken
      dsimp only
      split
      · have progressed : ∀ other : TaskBroker Payload, other.queue.Later
            (other.setProgress taskId (.waitingForRequester none)).queue := fun _ => .of_same rfl rfl rfl rfl
        refine Queue.Later.trans ?_ (progressed _)
        rw [queue_messageRequester]
        exact .of_same rfl rfl rfl rfl
      · exact .of_same rfl rfl rfl rfl

theorem later_step (config : TaskRunnersConfig) (event : Event Payload) :
    broker.queue.Later (broker.step config event).queue := by
  cases event with
  | registerRunner runnerId => exact .of_eq (queue_registerRunner runnerId)
  | deregisterRunner runnerId error =>
    simp only [step, queue_deregisterRunner]
    exact .of_same rfl rfl rfl rfl
  | registerRequester requesterId =>
    refine ⟨fun _ _ => id, fun _ still _ => still, Nat.le_refl _, ?_⟩
    intro connected request still
    obtain ⟨requesterId', inside, same⟩ := connected request still
    exact ⟨requesterId', List.mem_insert_of_mem inside, same⟩
  | deregisterRequester requesterId =>
    refine ⟨fun _ _ => id, fun _ still _ => List.mem_of_mem_filter still, Nat.le_refl _, ?_⟩
    intro connected request still
    -- The requests that stay belong to other requesters.
    obtain ⟨old, notIts⟩ := List.mem_filter.mp still
    obtain ⟨requesterId', inside, same⟩ := connected request old
    refine ⟨requesterId', List.mem_filter.mpr ⟨inside, ?_⟩, same⟩
    have isIts : (broker.requests[request]?).map TaskRequest.requesterId = some requesterId' := same
    simp only [isRequestOf, isIts] at notIts
    simpa using notIts
  | runnerMessage runnerId message =>
    simp only [step, onRunnerMessage]
    split
    · exact .refl _
    · cases message with
      | taskOffer offerId taskType validFor =>
        have offered : broker.queue.Later ({ broker with pendingTaskOffers := broker.pendingTaskOffers ++
            [broker.offerOf runnerId offerId taskType validFor] } : TaskBroker Payload).queue :=
          .of_same rfl rfl rfl rfl
        exact offered.trans later_settleTasks
      | taskAccepted | taskRejected | taskDeferred => exact .of_eq (queue_answerOffer broker _ _)
      | taskDone | taskError => exact .of_eq (queue_answerTask broker _ _)
      | taskDataRequest | nodeTypesRequest | rpc => exact .of_eq (queue_passToRequester broker _ _)
      | info => exact .refl _
  | requesterMessage requesterId message =>
    cases message with
    | taskRequest requestId taskType => exact later_taskRequested _
    | taskSettings taskId settings =>
      simp only [step, onRequesterMessage, handleRequesterAccept]
      split
      · exact .of_eq (queue_settleRequester broker taskId _)
      · exact .refl _
    | taskCancel taskId reason => exact .of_eq (queue_cancelTask (broker.record _) taskId reason)
    | taskDataResponse | nodeTypesResponse | rpcResponse => exact .of_eq (queue_passToRunner broker _ _)
  | runnerTimedOut taskId => exact .of_eq (queue_settleRunner broker taskId _)
  | requesterTimedOut taskId => exact .of_eq (queue_settleRequester broker taskId _)
  | taskTimedOut taskId => exact .of_eq (queue_handleTaskTimeout broker config taskId)
  | acceptOfferGoesOn taskId =>
    simp only [step, acceptOfferGoesOn]
    split
    · exact .refl _
    next call found =>
      split
      next outcome _ => exact later_runnerSettled taskId call.offer call.request outcome
      next outcome settled => exact .of_eq (queue_requesterSettled found (by rw [settled]; rfl) outcome)
      next runnerId settings settled =>
        exact .of_eq (queue_sendTaskSettings found (by rw [settled]; rfl) runnerId settings)
      all_goals exact .refl _
  | goesOn call => exact .of_eq (queue_goOn broker config call)
  | timePasses duration => exact .of_same rfl rfl rfl rfl

end

/-! ## The place of a task -/

/-- Nothing has happened yet to a task that no runner has taken. -/
structure Untouched (taskId : TaskId) (view : TaskView Payload) : Prop where
  unregistered : view.task = none
  unanswered : view.history.any (isAnswer taskId) = false
  notAwaited : view.answering = false
  uncancelled : ∀ requesterId, .cancel requesterId taskId true ∉ view.history

/-- A task of a connected requester is registered, answered or cancelled. -/
inductive Phase (taskId : TaskId) (requesterId : RequesterId) (view : TaskView Payload) : Prop where
  | registered (runnerId : RunnerId) (registered : view.task = some (runnerId, requesterId))
    (awaited : view.history.any (isAnswer taskId) = view.answering)
    (uncancelled : ∀ requesterId, .cancel requesterId taskId true ∉ view.history)
  | answered (deleted : view.task = none) (answered : view.history.any (isAnswer taskId) = true)
    (uncancelled : ∀ requesterId, .cancel requesterId taskId true ∉ view.history)
  | cancelled (deleted : view.task = none) (unanswered : view.history.any (isAnswer taskId) = false)
    (cancelled : .cancel requesterId taskId true ∈ view.history)

structure Placed (queue : Queue) (taskId : TaskId) (view : TaskView Payload) : Prop where
  untouched : ¬ IsTaken view → Untouched taskId view
  phase : ∀ runnerId request, view.call = some (runnerId, request, .taken) → request ∈ queue.stillConnected →
    ∃ requesterId, queue.requesterId request = some requesterId ∧ Phase taskId requesterId view

def Quiet (taskId : TaskId) (deeds : List (Deed Payload)) : Prop :=
  deeds.any (isAnswer taskId) = false ∧ ∀ requesterId, .cancel requesterId taskId true ∉ deeds

section

variable {broker : TaskBroker Payload} {config : TaskRunnersConfig} {event : Event Payload} {taskId : TaskId}
  {requesterId : RequesterId} {view next : TaskView Payload} {queue : Queue}

theorem quiet_nil : Quiet taskId ([] : List (Deed Payload)) := ⟨rfl, by simp⟩

theorem quiet_told (runnerId : RunnerId) (message : BrokerMessage.ToRunner Payload) :
    Quiet taskId (broker.told runnerId message) := by
  unfold told
  split <;> simp [Quiet, isAnswer]

theorem quiet_toldRequester {message : BrokerMessage.ToRequester Payload} (notFinal : isFinal taskId message = false) :
    Quiet taskId (broker.toldRequester requesterId message) := by
  unfold toldRequester
  split <;> simp [Quiet, isAnswer, notFinal]

theorem any_isAnswer_toldRequester {message : BrokerMessage.ToRequester Payload}
    (connected : requesterId ∈ broker.requesters) (final : isFinal taskId message = true) :
    (broker.toldRequester requesterId message).any (isAnswer taskId) = true := by
  simp [toldRequester, connected, isAnswer, final]

theorem cancel_append {later : List (Deed Payload)} {history : List (Deed Payload)}
    (uncancelled : ∀ requesterId, .cancel requesterId taskId true ∉ history)
    (quiet : ∀ requesterId, .cancel requesterId taskId true ∉ later) :
    ∀ requesterId, .cancel requesterId taskId true ∉ history ++ later := by
  intro requesterId inside
  rcases List.mem_append.mp inside with inside | inside
  · exact uncancelled requesterId inside
  · exact quiet requesterId inside

theorem Phase.of_quiet (phase : Phase taskId requesterId view) {later : List (Deed Payload)}
    (quiet : Quiet taskId later)
    (history : next.history = view.history ++ later) (task : next.task = view.task)
    (answering : next.answering = view.answering) : Phase taskId requesterId next := by
  have same : next.history.any (isAnswer taskId) = view.history.any (isAnswer taskId) := by
    rw [history, List.any_append, quiet.1, Bool.or_false]
  cases phase with
  | registered runnerId registered awaited uncancelled =>
    refine .registered runnerId (task.trans registered) (by rw [same, answering, awaited]) ?_
    rw [history]
    exact cancel_append uncancelled quiet.2
  | answered deleted answered uncancelled =>
    refine .answered (task.trans deleted) (same.trans answered) ?_
    rw [history]
    exact cancel_append uncancelled quiet.2
  | cancelled deleted unanswered cancelled =>
    refine .cancelled (task.trans deleted) (same.trans unanswered) ?_
    rw [history]
    exact List.mem_append_left _ cancelled

theorem Untouched.of_quiet (untouched : Untouched taskId view) {later : List (Deed Payload)}
    (quiet : Quiet taskId later)
    (history : next.history = view.history ++ later) (task : next.task = none)
    (answering : next.answering = view.answering) : Untouched taskId next where
  unregistered := task
  unanswered := by rw [history, List.any_append, untouched.unanswered, quiet.1, Bool.or_false]
  notAwaited := answering.trans untouched.notAwaited
  uncancelled := by
    rw [history]
    exact cancel_append untouched.uncancelled quiet.2

theorem Placed.of_quiet (placed : Placed queue taskId view) {later : List (Deed Payload)} (quiet : Quiet taskId later)
    (history : next.history = view.history ++ later) (call : next.call = view.call) (task : next.task = view.task)
    (answering : next.answering = view.answering) : Placed queue taskId next where
  untouched := by
    intro notTaken
    have before := placed.untouched (by rwa [IsTaken, call] at notTaken)
    exact before.of_quiet quiet history (task.trans before.unregistered) answering
  phase := by
    intro runnerId request isTaken still
    obtain ⟨requesterId, same, phase⟩ := placed.phase runnerId request (call ▸ isTaken) still
    exact ⟨requesterId, same, phase.of_quiet quiet history task answering⟩

theorem Placed.of_registered (placed : Placed queue taskId view) (registered : view.task ≠ none)
    (call : next.call = view.call)
    (moves : ∀ runnerId request requesterId, view.call = some (runnerId, request, .taken) →
      request ∈ queue.stillConnected → queue.requesterId request = some requesterId →
      Phase taskId requesterId view → Phase taskId requesterId next) : Placed queue taskId next where
  untouched := by
    intro notTaken
    exact absurd (placed.untouched (by rwa [IsTaken, call] at notTaken)).unregistered registered
  phase := by
    intro runnerId request isTaken still
    obtain ⟨requesterId, same, phase⟩ := placed.phase runnerId request (call ▸ isTaken) still
    exact ⟨requesterId, same, moves runnerId request requesterId (call ▸ isTaken) still same phase⟩

theorem Phase.of_registered {runnerId : RunnerId} {requesterId' : RequesterId} (phase : Phase taskId requesterId view)
    (isRegistered : view.task = some (runnerId, requesterId')) :
    requesterId' = requesterId ∧ view.history.any (isAnswer taskId) = view.answering ∧
      ∀ requesterId, .cancel requesterId taskId true ∉ view.history := by
  cases phase with
  | registered runnerId' registered awaited uncancelled =>
    rw [isRegistered] at registered
    simp only [Option.some.injEq, Prod.mk.injEq] at registered
    exact ⟨registered.2, awaited, uncancelled⟩
  | answered deleted => rw [isRegistered] at deleted; cases deleted
  | cancelled deleted => rw [isRegistered] at deleted; cases deleted

theorem Placed.move (placed : Placed broker.queue taskId view) (move : Move config broker taskId event view next)
    (connected : broker.queue.Connected)
    (settingsInTime : ∀ runnerId requesterId, view.task = some (runnerId, requesterId) →
      requesterId ∈ broker.requesters → ¬ RequesterGaveUp broker taskId event)
    (ownCancel : ∀ requesterId reason, event = .requesterMessage requesterId (.taskCancel taskId reason) →
      ∀ runnerId requesterId', view.task = some (runnerId, requesterId') →
        requesterId = requesterId' ∧ view.answering = false) :
    Placed broker.queue taskId next := by
  -- The requester of a registered task is connected, if its request is one of those the promise is about.
  have isConnected : ∀ request requesterId, request ∈ broker.queue.stillConnected →
      broker.queue.requesterId request = some requesterId → requesterId ∈ broker.requesters := by
    intro request requesterId still same
    obtain ⟨requesterId', inside, same'⟩ := connected request still
    rw [same] at same'
    exact Option.some.inj same' ▸ inside
  cases move with
  | same => exact placed
  | timeoutOver => exact placed.of_quiet quiet_nil (List.append_nil _).symm rfl rfl rfl
  | settled => exact placed.of_quiet quiet_nil (List.append_nil _).symm rfl rfl rfl
  | expired => exact placed.of_quiet (quiet_told _ _) rfl rfl rfl rfl
  | asked offer request new =>
    have notTaken := not_isTaken_of_new new
    have before := placed.untouched notTaken
    refine ⟨fun _ => before.of_quiet (quiet_told _ _) rfl before.unregistered rfl, ?_⟩
    intro runnerId request' isTaken
    simp at isTaken
  | givenUp runnerId request waits =>
    have before := placed.untouched (not_isTaken_of_waiting waits)
    refine ⟨fun _ => before.of_quiet quiet_nil (List.append_nil _).symm before.unregistered rfl, ?_⟩
    intro runnerId request' isTaken
    simp at isTaken
  | taken runnerId request object ready waits accepted isObject isReady =>
    have before := placed.untouched (not_isTaken_of_waiting waits)
    have quiet : Quiet taskId ready := by
      rcases isReady with rfl | rfl
      · exact quiet_nil
      · exact quiet_toldRequester (by simp [isFinal])
    refine ⟨fun notTaken => absurd ⟨_, _, rfl⟩ notTaken, ?_⟩
    intro runnerId' request' isTaken still
    simp only [Option.some.injEq, Prod.mk.injEq, and_true] at isTaken
    obtain ⟨rfl, rfl⟩ := isTaken
    refine ⟨object.requesterId, by simp [Queue.requesterId, queue, isObject], ?_⟩
    refine .registered runnerId rfl ?_ (cancel_append before.uncancelled quiet.2)
    simp [before.unanswered, quiet.1, before.notAwaited]
  | answered runnerId requesterId answer expiring less answers registered final =>
    refine placed.of_registered (by simp [registered]) rfl ?_
    intro runnerId' request requesterId' isTaken still same phase
    obtain ⟨rfl, _, uncancelled⟩ := phase.of_registered registered
    have answered := any_isAnswer_toldRequester (isConnected request _ still same) final
    refine .registered runnerId registered (by simp [answered]) (cancel_append uncancelled ?_)
    exact fun requesterId => cancel_not_mem_toldRequester _ _ requesterId true
  | failed runnerId requesterId error outcome answers lost registered outcomes =>
    refine placed.of_registered (by simp [registered]) rfl ?_
    intro runnerId' request requesterId' isTaken still same phase
    obtain ⟨rfl, _, uncancelled⟩ := phase.of_registered registered
    have answered := @any_isAnswer_toldRequester _ broker taskId _ (.taskError taskId error)
      (isConnected request _ still same) (by simp [isFinal])
    refine .answered rfl (by simp [answered]) (cancel_append uncancelled ?_)
    exact fun requesterId => cancel_not_mem_toldRequester _ _ requesterId true
  | dropped runnerId requesterId gaveUp registered =>
    refine placed.of_registered (by simp [registered]) rfl ?_
    intro runnerId' request requesterId' isTaken still same phase
    obtain ⟨rfl, _⟩ := phase.of_registered registered
    exact absurd gaveUp (settingsInTime runnerId _ registered (isConnected request _ still same))
  | cancelled requesterId reason cancels =>
    rcases Option.eq_none_or_eq_some view.task with none_ | ⟨task, registered⟩
    · -- A cancel that comes too late changes nothing.
      refine @Placed.of_quiet _ _ _ _ _ placed [.cancel requesterId taskId false]
        (by simp [Quiet, isAnswer]) ?_ rfl ?_ rfl
      · simp [none_]
      · simp [none_]
    · refine placed.of_registered (by simp [registered]) rfl ?_
      intro runnerId' request requesterId' isTaken still same phase
      obtain ⟨runnerId, owner⟩ := task
      obtain ⟨rfl, awaited, _⟩ := phase.of_registered registered
      obtain ⟨rfl, notAwaited⟩ := ownCancel requesterId reason cancels runnerId _ registered
      have quiet := @quiet_told _ broker taskId runnerId (.taskCancel taskId reason)
      refine .cancelled rfl ?_ ?_
      · simp [registered, awaited, notAwaited, isAnswer, quiet.1]
      · simp [registered]
  | finished answering answers =>
    constructor
    · intro notTaken
      have before := placed.untouched notTaken
      rw [before.notAwaited] at answers
      cases answers
    · intro runnerId request isTaken still
      obtain ⟨requesterId, same, phase⟩ := placed.phase runnerId request isTaken still
      refine ⟨requesterId, same, ?_⟩
      cases phase with
      | registered runnerId registered awaited uncancelled => exact .answered rfl (awaited.trans answers) uncancelled
      | answered deleted answered uncancelled => exact .answered rfl answered uncancelled
      | cancelled deleted unanswered cancelled => exact .cancelled rfl unanswered cancelled

theorem Move.taken_before (move : Move config broker taskId event view next) {runnerId : RunnerId} {request : Nat}
    (isTaken : next.call = some (runnerId, request, .taken)) :
    ∃ runnerId' stage, view.call = some (runnerId', request, stage) ∧ stage ≠ .givenUp := by
  have unchanged : view.call = some (runnerId, request, .taken) →
      ∃ runnerId' stage, view.call = some (runnerId', request, stage) ∧ stage ≠ .givenUp := fun before =>
    ⟨runnerId, .taken, before, by simp⟩
  cases move with
  | asked => simp at isTaken
  | givenUp => simp at isTaken
  | taken runnerId' request' object ready waits =>
    simp only [Option.some.injEq, Prod.mk.injEq, and_true] at isTaken
    obtain ⟨rfl, rfl⟩ := isTaken
    exact ⟨_, _, waits, by simp⟩
  | same | timeoutOver | settled | answered | failed | dropped | cancelled | finished | expired =>
    exact unchanged isTaken

end

/-! ## Every run -/

/-- What every step keeps that loses nothing. -/
structure Orderly (broker : TaskBroker Payload) : Prop where
  sound : broker.queue.Sound
  connected : broker.queue.Connected
  placed : ∀ taskId, Placed broker.queue taskId (broker.taskView taskId)

section

variable {broker : TaskBroker Payload} {taskId : TaskId} {request : Nat}

variable {stage : Stage}

theorem acceptance_of_call {runnerId : RunnerId}
    (call : (broker.taskView taskId).call = some (runnerId, request, stage)) :
    broker.queue.acceptance taskId = some (request, stage) := by
  obtain ⟨found, isFound, same⟩ := Option.map_eq_some_iff.mp call
  simp only [Prod.mk.injEq] at same
  simp [queue, isFound, same]

theorem Orderly.known (orderly : broker.Orderly) (notGivenUp : stage ≠ .givenUp)
    (found : broker.queue.acceptance taskId = some (request, stage)) : request < broker.queue.requests.length := by
  cases stage with
  | waiting => exact orderly.sound.known _ (orderly.sound.waiting taskId request found).1
  | givenUp => exact absurd rfl notGivenUp
  | taken => exact (orderly.sound.taken taskId request found).2

theorem Orderly.step (config : TaskRunnersConfig) {event : Event Payload} (orderly : broker.Orderly)
    (losesNothing : LosesNothing broker event) : (broker.step config event).Orderly where
  sound := sound_step config orderly.sound losesNothing.newRequestId losesNothing.notDeferred
  connected := (later_step config event).connected orderly.connected
  placed := by
    intro taskId
    have move := move_step config broker event taskId
    have later := @later_step _ broker config event
    have placed : Placed broker.queue taskId ((broker.step config event).taskView taskId) := by
      apply (orderly.placed taskId).move move orderly.connected
      · intro runnerId requesterId registered connected
        obtain ⟨task, found, _, rfl⟩ := (task_eq_some broker taskId).mp registered
        exact losesNothing.settingsInTime taskId task found connected
      · intro requesterId reason cancels runnerId requesterId' registered
        obtain ⟨task, found, _, rfl⟩ := (task_eq_some broker taskId).mp registered
        obtain ⟨own, notAwaited⟩ := losesNothing.ownCancel requesterId taskId reason cancels task found
        refine ⟨own, ?_⟩
        rw [← Bool.not_eq_true]
        exact fun awaited => notAwaited (List.contains_iff_mem.mp awaited)
    refine ⟨placed.untouched, ?_⟩
    intro runnerId request isTaken still
    obtain ⟨runnerId', stage, before, notGivenUp⟩ := move.taken_before isTaken
    have known := orderly.known notGivenUp (acceptance_of_call before)
    obtain ⟨requesterId, same, phase⟩ := placed.phase runnerId request isTaken (later.older request still known)
    exact ⟨requesterId, later.ids request requesterId same, phase⟩

theorem orderly_new : (new : TaskBroker Payload).Orderly where
  sound := sound_new
  connected := by
    intro request still
    cases still
  placed := by
    intro taskId
    constructor
    · intro _
      constructor <;> simp [taskView, new]
    · intro runnerId request isTaken
      simp [taskView, new] at isTaken

def TaskAt (broker : TaskBroker Payload) (taskId : TaskId) (request : Nat) : Place → Prop
  | .pending => False
  | .registered => (broker.taskView taskId).task ≠ none
  | .answered => (broker.taskView taskId).task = none ∧ (broker.taskView taskId).history.any (isAnswer taskId) = true
  | .cancelled => ∃ requesterId, broker.queue.requesterId request = some requesterId ∧
    .cancel requesterId taskId true ∈ (broker.taskView taskId).history

theorem any_history : (broker.taskView taskId).history.any (isAnswer taskId) = broker.log.any (isAnswer taskId) := by
  simp only [taskView, List.any_filter]
  congr 1
  funext deed
  cases answer : isAnswer taskId deed with
  | true => simp [concerns_of_isAnswer answer]
  | false => simp

theorem isAt_iff {place : Place} (notPending : place ≠ .pending) :
    broker.IsAt request place ↔ ∃ taskId, broker.IsCallFor taskId request ∧ broker.TaskAt taskId request place := by
  cases place with
  | pending => exact absurd rfl notPending
  | registered => simp [IsAt, TaskAt, taskView]
  | answered =>
    simp only [IsAt, TaskAt, any_history]
    simp [taskView]
  | cancelled =>
    simp only [IsAt, TaskAt, taskView, Queue.requesterId, queue, List.mem_filter, concerns, decide_true, and_true,
      Option.map_eq_some_iff, Option.mem_def]
    constructor
    · rintro ⟨taskId, isCall, object, found, cancelled⟩
      exact ⟨taskId, isCall, _, ⟨object, found, rfl⟩, cancelled⟩
    · rintro ⟨taskId, isCall, _, ⟨object, found, rfl⟩, cancelled⟩
      exact ⟨taskId, isCall, object, found, cancelled⟩

theorem Orderly.taken (orderly : broker.Orderly) {place : Place} (isCall : broker.IsCallFor taskId request)
    (isAt : broker.TaskAt taskId request place) : broker.queue.acceptance taskId = some (request, .taken) := by
  have isTaken : IsTaken (broker.taskView taskId) := by
    by_contra notTaken
    have untouched := (orderly.placed taskId).untouched notTaken
    cases place with
    | pending => exact isAt
    | registered => exact isAt untouched.unregistered
    | answered =>
      have unanswered := untouched.unanswered
      rw [isAt.2] at unanswered
      cases unanswered
    | cancelled =>
      obtain ⟨requesterId, _, cancelled⟩ := isAt
      exact untouched.uncancelled requesterId cancelled
  obtain ⟨runnerId, request', call⟩ := isTaken
  have found := acceptance_of_call call
  obtain ⟨call, isFound, rfl⟩ := isCall
  have same : broker.queue.acceptance taskId = some (call.request, stage call.progress) := by
    simp [queue, Option.mem_def.mp isFound]
  rw [same] at found
  simp only [Option.some.injEq, Prod.mk.injEq] at found
  rw [same, found.2]

theorem Phase.place {requesterId : RequesterId} (phase : Phase taskId requesterId (broker.taskView taskId))
    (requester : broker.queue.requesterId request = some requesterId) :
    ∃ place, place ≠ .pending ∧ broker.TaskAt taskId request place ∧
      ∀ other, broker.TaskAt taskId request other → other = place := by
  -- Each phase has its own place, and what it says excludes the other places.
  cases phase with
  | registered runnerId registered awaited uncancelled =>
    refine ⟨.registered, by simp, by simp [TaskAt, registered], ?_⟩
    intro other isAt
    cases other with
    | pending => exact isAt.elim
    | registered => rfl
    | answered => simp [TaskAt, registered] at isAt
    | cancelled =>
      obtain ⟨requesterId, _, cancelled⟩ := isAt
      exact absurd cancelled (uncancelled requesterId)
  | answered deleted answered uncancelled =>
    refine ⟨.answered, by simp, ⟨deleted, answered⟩, ?_⟩
    intro other isAt
    cases other with
    | pending => exact isAt.elim
    | registered => exact absurd deleted isAt
    | answered => rfl
    | cancelled =>
      obtain ⟨requesterId, _, cancelled⟩ := isAt
      exact absurd cancelled (uncancelled requesterId)
  | cancelled deleted unanswered cancelled =>
    refine ⟨.cancelled, by simp, ⟨requesterId, requester, cancelled⟩, ?_⟩
    intro other isAt
    cases other with
    | pending => exact isAt.elim
    | registered => exact absurd deleted isAt
    | answered =>
      obtain ⟨_, answered⟩ := isAt
      rw [unanswered] at answered
      cases answered
    | cancelled => rfl

theorem isCallFor_of_acceptance (found : broker.queue.acceptance taskId = some (request, stage)) :
    broker.IsCallFor taskId request ∧ ∃ runnerId, (broker.taskView taskId).call = some (runnerId, request, stage) := by
  obtain ⟨call, isFound, same⟩ := Option.map_eq_some_iff.mp found
  simp only [Prod.mk.injEq] at same
  obtain ⟨rfl, rfl⟩ := same
  exact ⟨⟨call, isFound, rfl⟩, call.offer.runnerId, by simp [taskView, isFound]⟩

theorem Orderly.atOnePlace (orderly : broker.Orderly) : broker.AtOnePlace := by
  intro request still
  obtain ⟨requesterId, _, requester⟩ := orderly.connected request still
  have known : request < broker.queue.requests.length := by
    obtain ⟨object, found, _⟩ := Option.map_eq_some_iff.mp requester
    exact (List.getElem?_eq_some_iff.mp found).1
  rcases orderly.sound.placed request known with pending | ⟨taskId, isTaken⟩
  · -- A pending request has no task that was taken.
    refine ⟨.pending, pending, ?_⟩
    intro other isAt
    by_contra notPending
    obtain ⟨taskId, isCall, at_⟩ := (isAt_iff notPending).mp isAt
    exact (orderly.sound.taken taskId request (orderly.taken isCall at_)).1 pending
  · obtain ⟨isCall, runnerId, call⟩ := isCallFor_of_acceptance isTaken
    obtain ⟨requesterId', requester', phase⟩ := (orderly.placed taskId).phase runnerId request call still
    obtain ⟨place, notPending, at_, only⟩ := phase.place requester'
    refine ⟨place, (isAt_iff notPending).mpr ⟨taskId, isCall, at_⟩, ?_⟩
    intro other isAt
    by_cases isPending : other = .pending
    · subst isPending
      exact absurd isAt (orderly.sound.taken taskId request isTaken).1
    · obtain ⟨taskId', isCall', at'⟩ := (isAt_iff isPending).mp isAt
      obtain rfl := orderly.sound.takenOnce taskId' taskId request (orderly.taken isCall' at') isTaken
      exact only other at'

end

/-- If no step of a run loses anything, every request of a requester that has stayed connected is always at exactly
one place. -/
theorem always_atOnePlace (config : TaskRunnersConfig) (events : List (Event Payload))
    (run : Runs.Every (step config) LosesNothing new events) :
    Runs.Always (step config) AtOnePlace new events := by
  have invariant : Runs.Always (step config) Orderly new events :=
    Runs.always_of_invariant (fun _ _ losesNothing orderly => orderly.step config losesNothing) orderly_new run
  exact invariant.imp fun _ orderly => orderly.atOnePlace

/-! A requester does not send its settings in time: the task is dropped, and the requester hears nothing. -/

namespace LateSettings

def config : TaskRunnersConfig := { mode := .external, taskTimeout := 60 }

def ready : List (Event Unit) :=
  [.registerRunner "runner", .registerRequester "requester",
    .requesterMessage "requester" (.taskRequest "request" "javascript"),
    .runnerMessage "runner" (.taskOffer 0 "javascript" 5000), .runnerMessage "runner" (.taskAccepted 0),
    .acceptOfferGoesOn 0]

def tooLate : List (Event Unit) := ready ++ [.requesterTimedOut 0, .acceptOfferGoesOn 0]

def done : List (Event Unit) :=
  ready ++ [.requesterMessage "requester" (.taskSettings 0 ()), .acceptOfferGoesOn 0, .acceptOfferGoesOn 0,
    .runnerMessage "runner" (.taskDone 0 ()), .goesOn (.finalAnswer 0)]

theorem tooLate_nowhere : ¬ Runs.Always (step config) AtOnePlace new tooLate := by
  intro always
  obtain ⟨place, isAt, _⟩ := always.final 0 (by decide)
  have onlyCall : ∀ taskId, (tooLate.foldl (step config) new).IsCallFor taskId 0 → taskId = 0 := by
    rintro taskId ⟨call, found, _⟩
    have inside := (List.getElem?_eq_some_iff.mp found).1
    have one : (tooLate.foldl (step config) new).acceptOffers.length = 1 := by decide
    exact Nat.lt_one_iff.mp (one ▸ inside)
  cases place with
  | pending =>
    have gone : 0 ∉ (tooLate.foldl (step config) new).pendingTaskRequests := by decide
    exact gone isAt
  | registered =>
    obtain ⟨taskId, isCall, registered⟩ := isAt
    rw [onlyCall taskId isCall] at registered
    exact registered (by decide)
  | answered =>
    obtain ⟨taskId, isCall, _, answered⟩ := isAt
    rw [onlyCall taskId isCall] at answered
    revert answered
    decide
  | cancelled =>
    obtain ⟨taskId, isCall, object, _, cancelled⟩ := isAt
    have none_ : ((tooLate.foldl (step config) new).log.any fun deed => match deed with
        | .cancel _ _ _ => true
        | _ => false) = false := by decide
    have notCancel := List.any_eq_false.mp none_ _ cancelled
    exact notCancel rfl

theorem done_atOnePlace : Runs.Every (step config) LosesNothing new done ∧
    Runs.Always (step config) AtOnePlace new done := by
  have goesOn : ∀ {broker : TaskBroker Unit} {taskId : TaskId} {call : AcceptOffer Unit},
      broker.acceptOffers[taskId]? = some call → call.progress ≠ .waitingForRunner (some .deferred) →
      call.progress ≠ .waitingForRequester (some .timedOut) → LosesNothing broker (.acceptOfferGoesOn taskId) := by
    intro broker taskId call found notDeferred inTime
    refine ⟨trivial, ?_, ?_, by rintro _ _ _ ⟨⟩⟩
    · simpa [GoesOnDeferred, found] using notDeferred
    · rintro taskId' task _ _ ⟨rfl, gaveUp⟩
      simp [found, inTime] at gaveUp
  have run : Runs.Every (step config) LosesNothing new done := by
    refine ⟨⟨trivial, id, fun _ _ _ _ => id, by rintro _ _ _ ⟨⟩⟩, ⟨trivial, id, fun _ _ _ _ => id, by rintro _ _ _ ⟨⟩⟩,
      ⟨by rintro _ ⟨⟩, id, fun _ _ _ _ => id, by rintro _ _ _ ⟨⟩⟩, ⟨trivial, id, fun _ _ _ _ => id, by rintro _ _ _ ⟨⟩⟩,
      ⟨trivial, id, fun _ _ _ _ => id, by rintro _ _ _ ⟨⟩⟩, goesOn rfl (by decide) (by decide),
      ⟨trivial, id, fun _ _ _ _ => id, by rintro _ _ _ ⟨⟩⟩, goesOn rfl (by decide) (by decide),
      goesOn rfl (by decide) (by decide), ⟨trivial, id, fun _ _ _ _ => id, by rintro _ _ _ ⟨⟩⟩,
      ⟨trivial, id, fun _ _ _ _ => id, by rintro _ _ _ ⟨⟩⟩, trivial⟩
  exact ⟨run, always_atOnePlace config done run⟩

end LateSettings

end N8n.TaskRunners.TaskBroker
