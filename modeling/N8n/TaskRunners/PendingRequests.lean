import Mathlib.Logic.Relation
import N8n.TaskRunners.TaskBroker

/-! # The pending requests of the broker

What the broker does with its requests: a request is submitted, the offer of a
runner is accepted for it, and the runner takes the task or does not.  The steps
of the broker are steps of this smaller machine.
-/

namespace N8n.TaskRunners

inductive Stage where
  | waiting
  | givenUp
  | taken
deriving DecidableEq, Repr

namespace TaskBroker

variable {Payload : Type}

def stage : Progress Payload → Stage
  | .waitingForRunner _ => .waiting
  | .givenUp => .givenUp
  | .waitingForRequester _ | .sendingSettings _ _ | .over => .taken

/-- What is seen of the requests; `acceptance` gives the request of a call of `acceptOffer` and its stage. -/
structure Queue where
  offers : List TaskOffer
  pending : List Nat
  requests : List TaskRequest
  acceptance : TaskId → Option (Nat × Stage)
  availableAgain : List Nat
  now : Nat
  requesters : List RequesterId
  stillConnected : List Nat

def queue (broker : TaskBroker Payload) : Queue :=
  { offers := broker.pendingTaskOffers
    pending := broker.pendingTaskRequests
    requests := broker.requests
    acceptance := fun taskId => broker.acceptOffers[taskId]?.map fun call => (call.request, stage call.progress)
    availableAgain := broker.availableAgain
    now := broker.now
    requesters := broker.requesters
    stillConnected := broker.stillConnected }

/-! ## What leaves the requests as they are -/

section

variable (broker : TaskBroker Payload)

@[simp] theorem queue_record (deed : Deed Payload) : (broker.record deed).queue = broker.queue := rfl

@[simp] theorem queue_messageRunner (runnerId : RunnerId) (message : BrokerMessage.ToRunner Payload) :
    (broker.messageRunner runnerId message).queue = broker.queue := by
  unfold messageRunner
  split <;> rfl

@[simp] theorem queue_messageRequester (requesterId : RequesterId) (message : BrokerMessage.ToRequester Payload) :
    (broker.messageRequester requesterId message).queue = broker.queue := by
  unfold messageRequester
  split <;> rfl

variable (taskId : TaskId)

@[simp] theorem queue_cancelTask (reason : String) :
    (broker.cancelTask taskId reason).queue = broker.queue := by
  unfold cancelTask
  split
  · rfl
  · simp only [queue_messageRunner]; rfl

@[simp] theorem queue_failTask (error : TaskFailure Payload) :
    (broker.failTask taskId error).queue = broker.queue := by
  unfold failTask
  split
  · rfl
  · simp only [queue_messageRequester]; rfl

@[simp] theorem queue_getRunnerOrFailTask :
    (broker.getRunnerOrFailTask taskId).1.queue = broker.queue := by
  unfold getRunnerOrFailTask
  split
  · rfl
  · split <;> simp

@[simp] theorem queue_setTimeout (timeout : Bool) :
    (broker.setTimeout taskId timeout).queue = broker.queue := by
  unfold setTimeout
  split <;> rfl

@[simp] theorem queue_answerTask (answer : BrokerMessage.ToRequester Payload) :
    (broker.answerTask taskId answer).queue = broker.queue := by
  unfold answerTask
  split
  · rfl
  · have sent := queue_messageRequester (broker.setTimeout taskId false)
    simp only [queue_setTimeout] at sent
    exact sent _ _

@[simp] theorem queue_passToRequester (message : BrokerMessage.ToRequester Payload) :
    (broker.passToRequester taskId message).queue = broker.queue := by
  unfold passToRequester
  split <;> simp

@[simp] theorem queue_passToRunner (message : BrokerMessage.ToRunner Payload) :
    (broker.passToRunner taskId message).queue = broker.queue := by
  have found := queue_getRunnerOrFailTask broker taskId
  unfold passToRunner
  split <;> simp_all

@[simp] theorem queue_handleTaskTimeout (config : TaskRunnersConfig) (taskId : TaskId) :
    (broker.handleTaskTimeout config taskId).queue = broker.queue := by
  unfold handleTaskTimeout
  split
  · rfl
  next task _ =>
    split
    · rfl
    · dsimp only
      split
      · simp [taskErrorHandler]
      · have sent := queue_messageRunner (broker.setTimeout taskId false) task.runnerId
        simp only [queue_setTimeout] at sent
        exact sent _

@[simp] theorem queue_goOn (config : TaskRunnersConfig) (call : Suspended) :
    (broker.goOn config call).queue = broker.queue := by
  unfold goOn
  split
  · rfl
  · dsimp only
    split
    · rfl
    · rw [taskErrorHandler, queue_answerTask]
      rfl

theorem queue_setProgress {taskId : TaskId} {call : AcceptOffer Payload}
    (found : broker.acceptOffers[taskId]? = some call)
    {progress : Progress Payload} (same : stage progress = stage call.progress) :
    (broker.setProgress taskId progress).queue = broker.queue := by
  have acceptance : (broker.setProgress taskId progress).queue.acceptance = broker.queue.acceptance := by
    funext other
    by_cases here : taskId = other
    · subst here
      simp [queue, setProgress, found, same]
    · simp [queue, setProgress, List.getElem?_modify_ne _ _ here]
  unfold queue at *
  simp only [setProgress] at *
  rw [acceptance]

@[simp] theorem queue_settleRunner (outcome : RunnerOutcome) :
    (broker.settleRunner taskId outcome).queue = broker.queue := by
  unfold settleRunner
  split
  next found => exact queue_setProgress broker found rfl
  · rfl

@[simp] theorem queue_settleRequester (outcome : RequesterOutcome Payload) :
    (broker.settleRequester taskId outcome).queue = broker.queue := by
  unfold settleRequester
  split
  next found => exact queue_setProgress broker found rfl
  · rfl

@[simp] theorem queue_answerOffer (outcome : RunnerOutcome) :
    (broker.answerOffer taskId outcome).queue = broker.queue := by
  unfold answerOffer
  split
  · exact queue_settleRunner broker taskId outcome
  · rfl

end

/-! ## Every request is queued once -/

namespace Queue

def requestId (queue : Queue) (request : Nat) : Option RequestId :=
  queue.requests[request]?.map TaskRequest.requestId

def InProgress (queue : Queue) (request : Nat) : Prop :=
  queue.requests[request]?.map TaskRequest.acceptInProgress = some true

/-- A request is pending, once, until a runner has taken a task for it, and at most one call is under way for it. -/
structure Sound (queue : Queue) : Prop where
  distinct : ∀ request request', queue.requestId request = queue.requestId request' →
    request < queue.requests.length → request = request'
  known : ∀ request ∈ queue.pending, request < queue.requests.length
  once : queue.pending.Nodup
  waiting : ∀ taskId request, queue.acceptance taskId = some (request, .waiting) →
    request ∈ queue.pending ∧ queue.InProgress request
  alone : ∀ taskId taskId' request, queue.acceptance taskId = some (request, .waiting) →
    queue.acceptance taskId' = some (request, .waiting) → taskId = taskId'
  taken : ∀ taskId request, queue.acceptance taskId = some (request, .taken) →
    request ∉ queue.pending ∧ request < queue.requests.length
  takenOnce : ∀ taskId taskId' request, queue.acceptance taskId = some (request, .taken) →
    queue.acceptance taskId' = some (request, .taken) → taskId = taskId'
  placed : ∀ request < queue.requests.length,
    request ∈ queue.pending ∨ ∃ taskId, queue.acceptance taskId = some (request, .taken)

def mark (queue : Queue) (request : Nat) (acceptInProgress : Bool) : Queue :=
  { queue with requests := queue.requests.modify request fun object => { object with acceptInProgress } }

def setAcceptance (queue : Queue) (taskId : TaskId) (request : Nat) (stage : Stage) : Queue :=
  { queue with acceptance := Function.update queue.acceptance taskId (some (request, stage)) }

section

variable {queue : Queue}

@[simp] theorem requestId_mark (request : Nat) (acceptInProgress : Bool) :
    (queue.mark request acceptInProgress).requestId = queue.requestId := by
  funext other
  unfold requestId mark
  rw [List.getElem?_modify]
  split <;> cases queue.requests[other]? <;> rfl

@[simp] theorem length_mark (request : Nat) (acceptInProgress : Bool) :
    (queue.mark request acceptInProgress).requests.length = queue.requests.length := by
  simp [mark]

@[simp] theorem requestId_setAcceptance (taskId : TaskId) (request : Nat) (stage : Stage) :
    (queue.setAcceptance taskId request stage).requestId = queue.requestId := rfl

@[simp] theorem requests_setAcceptance (taskId : TaskId) (request : Nat) (stage : Stage) :
    (queue.setAcceptance taskId request stage).requests = queue.requests := rfl

theorem inProgress_mark_of_ne {request other : Nat} (different : request ≠ other) (acceptInProgress : Bool) :
    (queue.mark request acceptInProgress).InProgress other ↔ queue.InProgress other := by
  unfold InProgress mark
  rw [List.getElem?_modify_ne _ _ different]

variable {request : Nat}

theorem inProgress_mark_true (known : request < queue.requests.length) :
    (queue.mark request true).InProgress request := by
  unfold InProgress mark
  simp [known]

theorem acceptance_setAcceptance {taskId other : TaskId} {request request' : Nat} {stage stage' : Stage}
    (found : (queue.setAcceptance taskId request stage).acceptance other = some (request', stage')) :
    (other = taskId ∧ request' = request ∧ stage' = stage) ∨
      (other ≠ taskId ∧ queue.acceptance other = some (request', stage')) := by
  by_cases same : other = taskId
  · subst same
    simp [setAcceptance] at found
    exact .inl ⟨rfl, found.1.symm, found.2.symm⟩
  · simp [setAcceptance, same] at found
    exact .inr ⟨same, found⟩

/-- A call at another stage than the one that is set was at it before. -/
theorem acceptance_of_other_stage {taskId other : TaskId} {request request' : Nat} {stage stage' : Stage}
    (found : (queue.setAcceptance taskId request stage).acceptance other = some (request', stage'))
    (different : stage' ≠ stage) : other ≠ taskId ∧ queue.acceptance other = some (request', stage') :=
  (acceptance_setAcceptance found).resolve_left fun set => different set.2.2

variable {taskId : TaskId}

/-- A call that has taken no request may go to any stage. -/
theorem Sound.still_placed (sound : queue.Sound)
    (notTaken : ∀ request, queue.acceptance taskId ≠ some (request, .taken))
    {stage : Stage} {accepts : Bool} {request' : Nat}
    (inside : request' < (queue.mark request accepts).requests.length) :
    request' ∈ queue.pending ∨ ∃ other,
      ((queue.mark request accepts).setAcceptance taskId request stage).acceptance other = some (request', .taken) := by
  rcases sound.placed request' (by simpa [mark] using inside) with queued | ⟨other, found⟩
  · exact .inl queued
  · have different : other ≠ taskId := fun same => notTaken request' (same ▸ found)
    exact .inr ⟨other, by simpa [setAcceptance, different, mark] using found⟩

theorem Sound.start (sound : queue.Sound) (pending : request ∈ queue.pending) (free : ¬ queue.InProgress request)
    (fresh : queue.acceptance taskId = none) :
    ((queue.mark request true).setAcceptance taskId request .waiting).Sound where
  distinct := fun first second same inside => sound.distinct first second (by simpa using same) (by simpa using inside)
  known := by simpa [setAcceptance, mark] using sound.known
  once := sound.once
  waiting := by
    intro taskId' request' found
    rcases acceptance_setAcceptance found with ⟨_, rfl, _⟩ | ⟨_, found⟩
    · exact ⟨pending, inProgress_mark_true (sound.known _ pending)⟩
    · obtain ⟨queued, marked⟩ := sound.waiting taskId' request' found
      have different : request ≠ request' := by
        rintro rfl
        exact free marked
      exact ⟨queued, (inProgress_mark_of_ne different true).mpr marked⟩
  alone := by
    -- No other call waits for the request, since it was not in progress.
    intro first second request' one other
    rcases acceptance_setAcceptance one with ⟨isFirst, same, _⟩ | ⟨_, earlier⟩ <;>
      rcases acceptance_setAcceptance other with ⟨isSecond, same', _⟩ | ⟨_, earlier'⟩
    · rw [isFirst, isSecond]
    · exact absurd (same ▸ (sound.waiting _ _ earlier').2) free
    · exact absurd (same' ▸ (sound.waiting _ _ earlier).2) free
    · exact sound.alone _ _ _ earlier earlier'
  taken := by
    intro taskId' request' found
    have before := acceptance_of_other_stage found nofun
    simpa [setAcceptance, mark] using sound.taken taskId' request' before.2
  takenOnce := fun _ _ _ one other =>
    sound.takenOnce _ _ _ (acceptance_of_other_stage one nofun).2 (acceptance_of_other_stage other nofun).2
  placed := fun _ inside => sound.still_placed (by simp [fresh]) inside

theorem Sound.giveUp (sound : queue.Sound) (waits : queue.acceptance taskId = some (request, .waiting)) :
    ((queue.mark request false).setAcceptance taskId request .givenUp).Sound where
  distinct := fun first second same inside => sound.distinct first second (by simpa using same) (by simpa using inside)
  known := by simpa [setAcceptance, mark] using sound.known
  once := sound.once
  waiting := by
    intro taskId' request' found
    obtain ⟨other, found⟩ := acceptance_of_other_stage found nofun
    obtain ⟨queued, marked⟩ := sound.waiting taskId' request' found
    -- Only one call waits for a request, so no other one is affected by the mark.
    have different : request ≠ request' := by
      rintro rfl
      exact other (sound.alone _ _ _ found waits)
    exact ⟨queued, (inProgress_mark_of_ne different false).mpr marked⟩
  alone := fun _ _ _ one other =>
    sound.alone _ _ _ (acceptance_of_other_stage one nofun).2 (acceptance_of_other_stage other nofun).2
  taken := by
    intro taskId' request' found
    have before := acceptance_of_other_stage found nofun
    simpa [setAcceptance, mark] using sound.taken taskId' request' before.2
  takenOnce := fun _ _ _ one other =>
    sound.takenOnce _ _ _ (acceptance_of_other_stage one nofun).2 (acceptance_of_other_stage other nofun).2
  placed := fun _ inside => sound.still_placed (by simp [waits]) inside

theorem Sound.take (sound : queue.Sound) (waits : queue.acceptance taskId = some (request, .waiting)) :
    ({ queue with pending := queue.pending.erase request }.setAcceptance taskId request .taken).Sound where
  distinct := sound.distinct
  known := fun request' queued => sound.known request' (List.mem_of_mem_erase queued)
  once := sound.once.erase request
  waiting := by
    intro taskId' request' found
    obtain ⟨other, found⟩ := acceptance_of_other_stage found nofun
    obtain ⟨queued, marked⟩ := sound.waiting taskId' request' found
    have different : request' ≠ request := by
      rintro rfl
      exact other (sound.alone _ _ _ found waits)
    exact ⟨(List.mem_erase_of_ne different).mpr queued, marked⟩
  alone := fun _ _ _ one other =>
    sound.alone _ _ _ (acceptance_of_other_stage one nofun).2 (acceptance_of_other_stage other nofun).2
  taken := by
    intro taskId' request' found
    rcases acceptance_setAcceptance found with ⟨_, rfl, _⟩ | ⟨_, found⟩
    · have queued := (sound.waiting taskId request' waits).1
      exact ⟨sound.once.not_mem_erase, sound.known _ queued⟩
    · obtain ⟨gone, inside⟩ := sound.taken taskId' request' found
      exact ⟨fun queued => gone (List.mem_of_mem_erase queued), inside⟩
  takenOnce := by
    -- A request that is still pending has not been taken before.
    have queued := (sound.waiting taskId request waits).1
    intro first second request' one other
    rcases acceptance_setAcceptance one with ⟨isFirst, same, _⟩ | ⟨_, earlier⟩ <;>
      rcases acceptance_setAcceptance other with ⟨isSecond, same', _⟩ | ⟨_, earlier'⟩
    · rw [isFirst, isSecond]
    · exact absurd queued (same ▸ (sound.taken _ _ earlier').1)
    · exact absurd queued (same' ▸ (sound.taken _ _ earlier).1)
    · exact sound.takenOnce _ _ _ earlier earlier'
  placed := by
    intro request' inside
    by_cases same : request' = request
    · subst same
      exact .inr ⟨taskId, by simp [setAcceptance]⟩
    · rcases sound.placed request' inside with queued | ⟨taskId', found⟩
      · exact .inl ((List.mem_erase_of_ne same).mpr queued)
      · right
        have other : taskId' ≠ taskId := by
          rintro rfl
          simp [waits] at found
        exact ⟨taskId', by simpa [setAcceptance, other] using found⟩

theorem Sound.submit (sound : queue.Sound) {object : TaskRequest}
    (fresh : ∀ request, queue.requestId request ≠ some object.requestId) :
    { queue with
      requests := queue.requests ++ [object]
      pending := queue.pending ++ [queue.requests.length] }.Sound where
  distinct := by
    -- The place of the new request is the only one with the new id.
    have idOf : ∀ request, ({ queue with requests := queue.requests ++ [object] } : Queue).requestId request =
        if request = queue.requests.length then some object.requestId else queue.requestId request := by
      intro request
      unfold requestId
      grind
    intro request request' same inside
    change ({ queue with requests := queue.requests ++ [object] } : Queue).requestId request =
      ({ queue with requests := queue.requests ++ [object] } : Queue).requestId request' at same
    rw [idOf, idOf] at same
    split at same <;> split at same
    · omega
    · exact absurd same.symm (fresh request')
    · exact absurd same (fresh request)
    · exact sound.distinct request request' same (by simp at inside; omega)
  known := by
    intro request queued
    rcases List.mem_append.mp queued with queued | queued
    · have inside := sound.known request queued
      simp only [List.length_append]
      omega
    · simp_all
  once := by
    refine List.nodup_append.mpr ⟨sound.once, by simp, ?_⟩
    intro request queued other isNew
    have inside := sound.known request queued
    simp only [List.mem_singleton] at isNew
    omega
  waiting := by
    intro taskId request found
    obtain ⟨queued, marked⟩ := sound.waiting taskId request found
    refine ⟨List.mem_append_left _ queued, ?_⟩
    unfold InProgress at *
    rwa [List.getElem?_append_left (sound.known request queued)]
  alone := sound.alone
  taken := by
    intro taskId request found
    obtain ⟨gone, inside⟩ := sound.taken taskId request found
    have older : request ≠ queue.requests.length := Nat.ne_of_lt inside
    simp [gone, older]
    omega
  takenOnce := sound.takenOnce
  placed := by
    intro request inside
    by_cases isNew : request = queue.requests.length
    · exact .inl (by simp [isNew])
    · rcases sound.placed request (by simp at inside; omega) with queued | found
      · exact .inl (List.mem_append_left _ queued)
      · exact .inr found

theorem Sound.congr {queue' : Queue} (sound : queue.Sound) (pending : queue'.pending = queue.pending)
    (requests : queue'.requests = queue.requests) (acceptance : queue'.acceptance = queue.acceptance) :
    queue'.Sound := by
  obtain ⟨_, _, _, _, _, _, _, _⟩ := queue
  obtain ⟨_, _, _, _, _, _, _, _⟩ := queue'
  subst pending requests acceptance
  exact ⟨sound.distinct, sound.known, sound.once, sound.waiting, sound.alone, sound.taken, sound.takenOnce,
    sound.placed⟩

end

end Queue

/-! ## The steps of the broker keep the requests queued once -/

section

variable {broker : TaskBroker Payload}

theorem queue_setProgress_of_found {taskId : TaskId} {call : AcceptOffer Payload}
    (found : broker.acceptOffers[taskId]? = some call) (progress : Progress Payload) :
    (broker.setProgress taskId progress).queue =
      broker.queue.setAcceptance taskId call.request (stage progress) := by
  have acceptance : (broker.setProgress taskId progress).queue.acceptance =
      (broker.queue.setAcceptance taskId call.request (stage progress)).acceptance := by
    funext other
    by_cases here : taskId = other
    · subst here
      simp [queue, setProgress, found, Queue.setAcceptance]
    · simp [queue, setProgress, List.getElem?_modify_ne _ _ here, Queue.setAcceptance, Ne.symm here]
  unfold queue Queue.setAcceptance at *
  simp only [setProgress] at *
  rw [acceptance]

theorem queue_acceptOffer (offer : TaskOffer) (request : Nat) :
    (broker.acceptOffer offer request).queue =
      broker.queue.setAcceptance broker.acceptOffers.length request .waiting := by
  have acceptance : (fun taskId => (broker.acceptOffers ++ [⟨offer, request, .waitingForRunner none⟩])[taskId]?.map
      fun call => (call.request, stage call.progress)) =
      (broker.queue.setAcceptance broker.acceptOffers.length request .waiting).acceptance := by
    funext other
    simp only [queue, Queue.setAcceptance, Function.update_apply]
    grind [stage]
  unfold acceptOffer
  rw [queue_messageRunner]
  unfold queue Queue.setAcceptance at *
  simp only at *
  rw [acceptance]

theorem acceptance_length : broker.queue.acceptance broker.acceptOffers.length = none := by
  simp [queue]

theorem sound_settleRequest (sound : broker.queue.Sound) {request : Nat} (pending : request ∈ broker.queue.pending) :
    (broker.settleRequest request).queue.Sound ∧
      (broker.settleRequest request).queue.pending = broker.queue.pending := by
  unfold settleRequest
  split
  · exact ⟨sound, rfl⟩
  next object found =>
    split
    · exact ⟨sound, rfl⟩
    next free =>
      split
      · exact ⟨sound, rfl⟩
      · rw [queue_acceptOffer]
        have notInProgress : ¬ broker.queue.InProgress request := by
          simp [Queue.InProgress, queue, found, free]
        have started := sound.start pending notInProgress (@acceptance_length _ broker)
        exact ⟨started.congr rfl rfl rfl, rfl⟩

theorem sound_settleTasks (sound : broker.queue.Sound) : broker.settleTasks.queue.Sound := by
  -- Settling leaves the pending requests as they are, so the later ones are still pending in their turn.
  have folded : broker.settleTasks.queue.Sound ∧ broker.settleTasks.queue.pending = broker.queue.pending := by
    apply Loop.foldl_preserves fun state : TaskBroker Payload => state.queue.Sound ∧
      state.queue.pending = broker.queue.pending
    · intro request member state kept
      have pending : request ∈ state.queue.pending := by rw [kept.2]; exact member
      obtain ⟨next, same⟩ := sound_settleRequest kept.1 pending
      exact ⟨next, same.trans kept.2⟩
    · exact ⟨sound.congr rfl rfl rfl, rfl⟩
  exact folded.1

theorem sound_taskRequested (sound : broker.queue.Sound) {request : TaskRequest}
    (fresh : ∀ object ∈ broker.requests, object.requestId ≠ request.requestId) :
    (broker.taskRequested request).queue.Sound := by
  apply sound_settleTasks
  refine (@Queue.Sound.submit _ sound request ?_).congr rfl rfl rfl
  intro other same
  obtain ⟨object, found, sameId⟩ := Option.map_eq_some_iff.mp same
  exact fresh object (List.mem_of_getElem? found) sameId

theorem eraseP_requestId (sound : broker.queue.Sound) {request : Nat} {object : TaskRequest}
    (found : broker.requests[request]? = some object) (pending : List Nat) :
    (pending.eraseP fun other => (broker.requests[other]?).map TaskRequest.requestId == some object.requestId) =
      pending.erase request := by
  have isRequest : ∀ other, ((broker.requests[other]?).map TaskRequest.requestId == some object.requestId) =
      (other == request) := by
    intro other
    rw [Bool.eq_iff_iff]
    simp only [beq_iff_eq]
    constructor
    · intro same
      have known : request < broker.queue.requests.length := (List.getElem?_eq_some_iff.mp found).1
      have sameIds : broker.queue.requestId request = broker.queue.requestId other := by
        simpa [Queue.requestId, queue, found] using same.symm
      exact (sound.distinct request other sameIds known).symm
    · rintro rfl
      simp [found]
  rw [List.erase_eq_eraseP', funext isRequest]

variable {taskId : TaskId} {call : AcceptOffer Payload}

/-- The call goes on after the runner has answered; only a deferral puts the request into the queue again. -/
theorem sound_runnerSettled (sound : broker.queue.Sound) {outcome : RunnerOutcome}
    (found : broker.acceptOffers[taskId]? = some call) (settled : call.progress = .waitingForRunner (some outcome))
    (notDeferred : outcome ≠ .deferred) :
    (broker.runnerSettled taskId call.offer call.request outcome).queue.Sound := by
  have waits : broker.queue.acceptance taskId = some (call.request, .waiting) := by
    simp [queue, found, settled, stage]
  have notTaken : (broker.offerNotTaken taskId call.request).queue.Sound := by
    have same : (broker.offerNotTaken taskId call.request).queue.acceptance =
        ((broker.queue.mark call.request false).setAcceptance taskId call.request .givenUp).acceptance := by
      have given := @queue_setProgress_of_found _ (broker.setAcceptInProgress call.request false) _ _ found .givenUp
      have acceptance := congrArg Queue.acceptance given
      exact acceptance
    exact (sound.giveUp waits).congr rfl rfl same
  cases outcome with
  | rejected => exact notTaken
  | timedOut => exact notTaken
  | deferred => exact absurd rfl notDeferred
  | accepted =>
    -- The request of a waiting call is pending, so that it is found by its id and taken out.
    obtain ⟨queued, _⟩ := sound.waiting taskId call.request waits
    have known : call.request < broker.requests.length := sound.known call.request queued
    obtain ⟨object, isObject⟩ : ∃ object, broker.requests[call.request]? = some object :=
      ⟨_, List.getElem?_eq_getElem known⟩
    have isPending : broker.pendingTaskRequests.any (fun other =>
        (broker.requests[other]?).map TaskRequest.requestId == some object.requestId) = true :=
      List.any_eq_true.mpr ⟨call.request, queued, by simp [isObject]⟩
    simp only [runnerSettled, isObject, offerTaken, isPending, if_true, eraseP_requestId sound isObject]
    have progressed : ∀ (other : TaskBroker Payload), other.acceptOffers = broker.acceptOffers →
        (other.setProgress taskId (.waitingForRequester none)).queue =
          other.queue.setAcceptance taskId call.request .taken := fun other same =>
      queue_setProgress_of_found (by rw [same]; exact found) _
    rw [progressed, queue_messageRequester]
    · exact (sound.take waits).congr rfl rfl rfl
    · unfold messageRequester
      split <;> rfl

@[simp] theorem acceptOffers_messageRunner (runnerId : RunnerId) (message : BrokerMessage.ToRunner Payload) :
    (broker.messageRunner runnerId message).acceptOffers = broker.acceptOffers := by
  unfold messageRunner
  split <;> rfl

@[simp] theorem acceptOffers_messageRequester (requesterId : RequesterId)
    (message : BrokerMessage.ToRequester Payload) :
    (broker.messageRequester requesterId message).acceptOffers = broker.acceptOffers := by
  unfold messageRequester
  split <;> rfl

@[simp] theorem acceptOffers_cancelTask (taskId : TaskId) (reason : String) :
    (broker.cancelTask taskId reason).acceptOffers = broker.acceptOffers := by
  unfold cancelTask
  split <;> simp

@[simp] theorem acceptOffers_getRunnerOrFailTask (taskId : TaskId) :
    (broker.getRunnerOrFailTask taskId).1.acceptOffers = broker.acceptOffers := by
  unfold getRunnerOrFailTask failTask
  split
  · rfl
  · split
    · rfl
    · split <;> simp

theorem queue_requesterSettled (found : broker.acceptOffers[taskId]? = some call)
    (isTaken : stage call.progress = .taken) (outcome : RequesterOutcome Payload) :
    (broker.requesterSettled taskId outcome).queue = broker.queue := by
  have isOver : ∀ other : TaskBroker Payload, other.acceptOffers = broker.acceptOffers → ∀ progress,
      stage progress = .taken → (other.setProgress taskId progress).queue = other.queue := by
    intro other same progress later
    exact queue_setProgress other (by rw [same]; exact found) (later.trans isTaken.symm)
  have got := queue_getRunnerOrFailTask broker taskId
  have gotCalls := @acceptOffers_getRunnerOrFailTask _ broker taskId
  cases outcome with
  | timedOut =>
    unfold requesterSettled
    rw [isOver _ (by simp) _ rfl, queue_cancelTask]
  | settings settings =>
    simp only [requesterSettled]
    split
    next other runnerId result =>
      rw [result] at got gotCalls
      rw [isOver _ gotCalls _ rfl]
      exact got
    next other result =>
      rw [result] at got gotCalls
      rw [isOver _ (by simpa using gotCalls) _ rfl, queue_cancelTask]
      exact got

theorem queue_sendTaskSettings (found : broker.acceptOffers[taskId]? = some call)
    (isTaken : stage call.progress = .taken) (runnerId : RunnerId) (settings : Payload) :
    (broker.sendTaskSettings taskId runnerId settings).queue = broker.queue := by
  have isOver : (broker.setProgress taskId .over).queue = broker.queue :=
    queue_setProgress broker found isTaken.symm
  unfold sendTaskSettings
  dsimp only
  split
  · exact isOver
  · simp only [queue_messageRunner, queue_setTimeout, isOver]

theorem sound_acceptOfferGoesOn (sound : broker.queue.Sound)
    (notDeferred : (broker.acceptOffers[taskId]?).map AcceptOffer.progress ≠
      some (.waitingForRunner (some .deferred))) : (broker.acceptOfferGoesOn taskId).queue.Sound := by
  unfold acceptOfferGoesOn
  split
  · exact sound
  next call found =>
    split
    next outcome settled =>
      apply sound_runnerSettled sound found settled
      rintro rfl
      exact notDeferred (by simp [found, settled])
    next outcome settled =>
      -- The call has its task already, and goes on with it.
      rw [queue_requesterSettled found (by rw [settled]; rfl)]
      exact sound
    next runnerId settings settled =>
      rw [queue_sendTaskSettings found (by rw [settled]; rfl)]
      exact sound
    all_goals exact sound

@[simp] theorem queue_registerRunner (runnerId : RunnerId) :
    (broker.registerRunner runnerId).queue = broker.queue := by
  simp only [registerRunner, queue_messageRunner]
  rfl

theorem queue_deregisterRunner (runnerId : RunnerId) (error : TaskFailure Payload) :
    (broker.deregisterRunner runnerId error).queue =
      { broker.queue with offers := broker.queue.offers.filter fun offer => offer.runnerId ≠ runnerId } := by
  apply Loop.foldl_preserves fun state : TaskBroker Payload => state.queue =
    { broker.queue with offers := broker.queue.offers.filter fun offer => offer.runnerId ≠ runnerId }
  · intro entry _ state same
    simp [handleRunnerReject, same]
  · rfl

/-- A request is submitted under an id that no other has. -/
def NewRequestId (broker : TaskBroker Payload) : Event Payload → Prop
  | .requesterMessage _ (.taskRequest requestId _) => ∀ object ∈ broker.requests, object.requestId ≠ requestId
  | _ => True

/-- `acceptOffer` goes on after the runner has deferred the task. -/
def GoesOnDeferred (broker : TaskBroker Payload) : Event Payload → Prop
  | .acceptOfferGoesOn taskId =>
    (broker.acceptOffers[taskId]?).map AcceptOffer.progress = some (.waitingForRunner (some .deferred))
  | _ => False

theorem sound_onRunnerMessage (sound : broker.queue.Sound) (runnerId : RunnerId)
    (message : RunnerMessage.ToBroker Payload) : (broker.onRunnerMessage runnerId message).queue.Sound := by
  unfold onRunnerMessage
  split
  · exact sound
  · cases message with
    | taskOffer offerId taskType validFor => exact sound_settleTasks (sound.congr rfl rfl rfl)
    | taskAccepted | taskRejected | taskDeferred =>
      simpa [handleRunnerAccept, handleRunnerReject, handleRunnerDeferred] using sound
    | taskDone | taskError => simpa [taskDoneHandler, taskErrorHandler] using sound
    | taskDataRequest | nodeTypesRequest | rpc =>
      simpa [handleDataRequest, handleNodeTypesRequest, handleRpcRequest] using sound
    | info => exact sound

theorem sound_onRequesterMessage (sound : broker.queue.Sound) (requesterId : RequesterId)
    {message : RequesterMessage.ToBroker Payload}
    (allowed : NewRequestId broker (.requesterMessage requesterId message)) :
    (broker.onRequesterMessage requesterId message).queue.Sound := by
  unfold onRequesterMessage
  cases message with
  | taskRequest requestId taskType => exact sound_taskRequested sound allowed
  | taskSettings taskId settings =>
    unfold handleRequesterAccept
    dsimp only
    split
    · have same := queue_settleRequester broker taskId (.settings settings)
      exact sound.congr (congrArg Queue.pending same) (congrArg Queue.requests same) (congrArg Queue.acceptance same)
    · exact sound
  | taskCancel taskId reason => simpa [requesterCancels] using sound
  | taskDataResponse | nodeTypesResponse | rpcResponse =>
    simpa [handleRequesterDataResponse, handleRequesterNodeTypesResponse, handleRequesterRpcResponse] using sound

theorem sound_step (config : TaskRunnersConfig) (sound : broker.queue.Sound) {event : Event Payload}
    (allowed : NewRequestId broker event) (notDeferred : ¬ GoesOnDeferred broker event) :
    (broker.step config event).queue.Sound := by
  cases event with
  | registerRunner runnerId => simpa [step] using sound
  | deregisterRunner runnerId error =>
    simp only [step, queue_deregisterRunner]
    exact sound.congr rfl rfl rfl
  | registerRequester requesterId => exact sound.congr rfl rfl rfl
  | deregisterRequester requesterId => exact sound.congr rfl rfl rfl
  | runnerMessage runnerId message => exact sound_onRunnerMessage sound runnerId message
  | requesterMessage requesterId message => exact sound_onRequesterMessage sound requesterId allowed
  | runnerTimedOut taskId => simpa [step] using sound
  | requesterTimedOut taskId => simpa [step] using sound
  | taskTimedOut taskId => simpa [step] using sound
  | acceptOfferGoesOn taskId => exact sound_acceptOfferGoesOn sound notDeferred
  | goesOn call => simpa [step] using sound
  | timePasses duration => exact sound.congr rfl rfl rfl

theorem sound_new : (new : TaskBroker Payload).queue.Sound := by
  constructor <;> simp [queue, new]

end

def hasRequestId (broker : TaskBroker Payload) (requestId : RequestId) (request : Nat) : Bool :=
  (broker.requests[request]?).map TaskRequest.requestId == some requestId

/-- A runner has been asked to take a task for the request and acceptOffer has not gone on yet. -/
def InFlight (broker : TaskBroker Payload) (taskId : TaskId) (requestId : RequestId) : Prop :=
  ∃ call ∈ broker.acceptOffers[taskId]?, stage call.progress = .waiting ∧ broker.hasRequestId requestId call.request

def Taken (broker : TaskBroker Payload) (taskId : TaskId) (requestId : RequestId) : Prop :=
  ∃ call ∈ broker.acceptOffers[taskId]?, stage call.progress = .taken ∧ broker.hasRequestId requestId call.request

/-- What is promised about the ids of the pending requests. -/
structure QueuedOnce (broker : TaskBroker Payload) : Prop where
  once : ∀ requestId, broker.pendingTaskRequests.countP (broker.hasRequestId requestId) ≤ 1
  alone : ∀ requestId taskId taskId', broker.InFlight taskId requestId → broker.InFlight taskId' requestId →
    taskId = taskId'
  taken : ∀ requestId taskId, broker.Taken taskId requestId →
    broker.pendingTaskRequests.countP (broker.hasRequestId requestId) = 0

section

variable {broker : TaskBroker Payload}

theorem hasRequestId_unique (sound : broker.queue.Sound) {requestId : RequestId} {request request' : Nat}
    (has : broker.hasRequestId requestId request = true) (has' : broker.hasRequestId requestId request' = true) :
    request = request' := by
  simp only [hasRequestId, beq_iff_eq] at has has'
  obtain ⟨object, found, _⟩ := Option.map_eq_some_iff.mp has
  exact sound.distinct request request' (has.trans has'.symm) (List.getElem?_eq_some_iff.mp found).1

theorem countP_hasRequestId (sound : broker.queue.Sound) {requestId : RequestId} {request : Nat}
    (has : broker.hasRequestId requestId request = true) :
    broker.pendingTaskRequests.countP (broker.hasRequestId requestId) = broker.pendingTaskRequests.count request := by
  apply List.countP_congr
  intro other _
  simp only [beq_iff_eq]
  constructor
  · intro has'
    exact hasRequestId_unique sound has' has
  · rintro rfl
    exact has

theorem queuedOnce_of_sound (sound : broker.queue.Sound) : broker.QueuedOnce where
  once := by
    intro requestId
    by_cases some_ : ∃ request ∈ broker.pendingTaskRequests, broker.hasRequestId requestId request = true
    · obtain ⟨request, _, has⟩ := some_
      rw [countP_hasRequestId sound has]
      exact List.nodup_iff_count_le_one.mp sound.once request
    · push Not at some_
      rw [List.countP_eq_zero.mpr (by simpa using some_)]
      exact Nat.zero_le 1
  alone := by
    rintro requestId taskId taskId' ⟨call, found, waits, has⟩ ⟨call', found', waits', has'⟩
    have same := hasRequestId_unique sound has has'
    apply sound.alone taskId taskId' call.request
    · simp [queue, Option.mem_def.mp found, waits]
    · simp [queue, Option.mem_def.mp found', waits', same]
  taken := by
    rintro requestId taskId ⟨call, found, isTaken, has⟩
    have gone := (sound.taken taskId call.request (by simp [queue, Option.mem_def.mp found, isTaken])).1
    rw [countP_hasRequestId sound has]
    exact List.count_eq_zero.mpr gone

theorem not_queuedOnce_of_deferred (config : TaskRunnersConfig) (sound : broker.queue.Sound) {event : Event Payload}
    (deferred : GoesOnDeferred broker event) : ¬ (broker.step config event).QueuedOnce := by
  cases event with
  | acceptOfferGoesOn taskId =>
    obtain ⟨call, found, settled⟩ := Option.map_eq_some_iff.mp deferred
    have waits : broker.queue.acceptance taskId = some (call.request, .waiting) := by
      simp [queue, found, settled, stage]
    obtain ⟨queued, _⟩ := sound.waiting taskId call.request waits
    have known : call.request < broker.requests.length := sound.known _ queued
    have goesOn : broker.step config (.acceptOfferGoesOn taskId) =
        { broker.offerNotTaken taskId call.request with
          pendingTaskRequests := broker.pendingTaskRequests ++ [call.request] } := by
      simp only [step, acceptOfferGoesOn, found, settled, runnerSettled]
      rfl
    have has : (broker.step config (.acceptOfferGoesOn taskId)).hasRequestId
        (broker.requests[call.request]).requestId call.request = true := by
      simp [goesOn, hasRequestId, offerNotTaken, setProgress, setAcceptInProgress, known]
    have pendingAfter : (broker.step config (.acceptOfferGoesOn taskId)).pendingTaskRequests =
        broker.pendingTaskRequests ++ [call.request] := by rw [goesOn]
    generalize broker.step config (.acceptOfferGoesOn taskId) = after at has pendingAfter
    intro once
    have one := once.once (broker.requests[call.request]).requestId
    have before : 0 < broker.pendingTaskRequests.countP
      (after.hasRequestId (broker.requests[call.request]).requestId) :=
      List.countP_pos_iff.mpr ⟨call.request, queued, has⟩
    rw [pendingAfter, List.countP_append, List.countP_singleton, if_pos has] at one
    omega
  | _ => exact deferred.elim

end

/-- The requests are queued once in exactly those runs in which no call of `acceptOffer` goes on after a deferral. -/
theorem always_queuedOnce_iff (config : TaskRunnersConfig) (events : List (Event Payload))
    (run : Runs.Every (step config) NewRequestId new events) :
    Runs.Always (step config) QueuedOnce new events ↔
      Runs.Every (step config) (fun broker event => ¬ GoesOnDeferred broker event) new events :=
  Runs.always_iff_every_of_lost (fun _ => queuedOnce_of_sound)
    (fun _ _ allowed notDeferred sound => sound_step config sound allowed notDeferred)
    (fun _ _ _ deferred sound => not_queuedOnce_of_deferred config sound (not_not.mp deferred))
    sound_new run

/-! The launcher takes the offer of a task that it starts a runner for.  If it defers the task, the request stays in the
queue after the runner has taken it. -/

namespace Launcher

def config : TaskRunnersConfig := { mode := .external, taskTimeout := 60 }

def connected : List (Event Unit) :=
  [.registerRunner "launcher", .registerRequester "requester",
    .requesterMessage "requester" (.taskRequest "request" "javascript"),
    .runnerMessage "launcher" (.taskOffer 0 "javascript" (-1))]

def acceptedAtOnce : List (Event Unit) :=
  connected ++ [.runnerMessage "launcher" (.taskAccepted 0), .acceptOfferGoesOn 0]

def deferred : List (Event Unit) :=
  connected ++ [.runnerMessage "launcher" (.taskDeferred 0), .acceptOfferGoesOn 0, .registerRunner "runner",
    .runnerMessage "runner" (.taskOffer 1 "javascript" 5000), .runnerMessage "runner" (.taskAccepted 1),
    .acceptOfferGoesOn 1]

theorem newRequestIds : Runs.Every (step config) NewRequestId new acceptedAtOnce ∧
    Runs.Every (step config) NewRequestId new deferred := by
  simp only [acceptedAtOnce, deferred, connected, List.cons_append, List.nil_append, Runs.every_cons, Runs.every_nil,
    NewRequestId, and_true, true_and]
  exact ⟨by decide, by decide⟩

theorem acceptedAtOnce_queuedOnce : Runs.Every (step config) NewRequestId new acceptedAtOnce ∧
    (Runs.Always (step config) QueuedOnce new acceptedAtOnce ↔
      Runs.Every (step config) (fun broker event => ¬ GoesOnDeferred broker event) new acceptedAtOnce) :=
  ⟨newRequestIds.1, always_queuedOnce_iff config acceptedAtOnce newRequestIds.1⟩

theorem deferred_not_queuedOnce : Runs.Every (step config) NewRequestId new deferred ∧
    ¬ Runs.Always (step config) QueuedOnce new deferred := by
  refine ⟨newRequestIds.2, fun always => ?_⟩
  have isTaken : Taken (deferred.foldl (step config) new) 1 "request" := ⟨_, rfl, rfl, rfl⟩
  have gone := always.final.taken "request" 1 isTaken
  revert gone
  decide

end Launcher

end TaskBroker

end N8n.TaskRunners
