import N8n.TaskRunners.PendingRequests

/-! # What a step of the broker does to one task

Everything that the promises about a task depend on is put into one view, and
every step of the broker makes one move on the view of each task, if any.  The
promises are then about moves, and not about the handlers.
-/

namespace N8n.TaskRunners.TaskBroker

variable {Payload : Type}

/-- `taskdone` or `taskerror` for the task. -/
def isFinal (taskId : TaskId) : BrokerMessage.ToRequester Payload → Bool
  | .taskDone answered _ | .taskError answered _ => answered = taskId
  | _ => false

/-- The deeds of the hand-shakes for a task, of its cancels and of its answers. -/
def concerns (taskId : TaskId) : Deed Payload → Bool
  | .toRunner _ (.taskOfferAccept _ accepted) => accepted = taskId
  | .toRunner _ (.taskCancel cancelled _) => cancelled = taskId
  | .toRequester _ (.taskReady _ ready) => ready = taskId
  | .toRequester _ message => isFinal taskId message
  | .cancel _ cancelled _ => cancelled = taskId
  | _ => false

def runnerOutcome : Progress Payload → Option RunnerOutcome
  | .waitingForRunner outcome => outcome
  | _ => none

structure TaskView (Payload : Type) where
  /-- The runner and the requester of the task, if it is registered. -/
  task : Option (RunnerId × RequesterId)
  /-- The runner, the request and the stage of the call of `acceptOffer`. -/
  call : Option (RunnerId × Nat × Stage)
  outcome : Option RunnerOutcome
  answering : Bool
  expiring : Bool
  history : List (Deed Payload)

def taskView (broker : TaskBroker Payload) (taskId : TaskId) : TaskView Payload :=
  { task := (broker.tasks.get? taskId).map fun task => (task.runnerId, task.requesterId)
    call := broker.acceptOffers[taskId]?.map fun call => (call.offer.runnerId, call.request, stage call.progress)
    outcome := broker.acceptOffers[taskId]?.bind fun call => runnerOutcome call.progress
    answering := broker.suspended.contains (.finalAnswer taskId)
    expiring := broker.suspended.contains (.taskTimeout taskId)
    history := broker.log.filter (concerns taskId) }

def told (broker : TaskBroker Payload) (runnerId : RunnerId) (message : BrokerMessage.ToRunner Payload) :
    List (Deed Payload) :=
  if runnerId ∈ broker.knownRunners then [.toRunner runnerId message] else []

def toldRequester (broker : TaskBroker Payload) (requesterId : RequesterId)
    (message : BrokerMessage.ToRequester Payload) : List (Deed Payload) :=
  if requesterId ∈ broker.requesters then [.toRequester requesterId message] else []

def RunnerLost (broker : TaskBroker Payload) (taskId : TaskId) : Prop :=
  ∃ task ∈ broker.tasks.get? taskId, task.runnerId ∉ broker.knownRunners

/-- The event makes the broker give a final answer to a registered task. -/
def Answers (config : TaskRunnersConfig) (broker : TaskBroker Payload) (taskId : TaskId) : Event Payload → Prop
  | .runnerMessage runnerId (.taskDone answered _) | .runnerMessage runnerId (.taskError answered _) =>
    answered = taskId ∧ runnerId ∈ broker.knownRunners
  | .taskTimedOut timedOut =>
    timedOut = taskId ∧ config.mode = .internal ∧ ∃ task ∈ broker.tasks.get? taskId, task.timeout = true
  | .goesOn (.taskTimeout timedOut) => timedOut = taskId ∧ .taskTimeout taskId ∈ broker.suspended
  | .deregisterRunner runnerId _ => ∃ task ∈ broker.tasks.get? taskId, task.runnerId = runnerId
  | .acceptOfferGoesOn settled =>
    settled = taskId ∧ broker.RunnerLost taskId ∧ ∃ call ∈ broker.acceptOffers[taskId]?, ∃ settings,
      call.progress = .waitingForRequester (some (.settings settings))
  | .requesterMessage _ (.taskDataResponse answered _ _) | .requesterMessage _ (.nodeTypesResponse answered _ _)
  | .requesterMessage _ (.rpcResponse answered _ _ _) => answered = taskId ∧ broker.RunnerLost taskId
  | _ => False

/-- `acceptOffer` goes on after the requester has not sent its settings in time. -/
def RequesterGaveUp (broker : TaskBroker Payload) (taskId : TaskId) : Event Payload → Prop
  | .acceptOfferGoesOn settled => settled = taskId ∧
    (broker.acceptOffers[taskId]?).map AcceptOffer.progress = some (.waitingForRequester (some .timedOut))
  | _ => False

inductive Move (config : TaskRunnersConfig) (broker : TaskBroker Payload) (taskId : TaskId) (event : Event Payload)
    (view : TaskView Payload) : TaskView Payload → Prop where
  | same : Move config broker taskId event view view
  | timeoutOver (expiring : Bool) (less : expiring = true → view.expiring = true) :
    Move config broker taskId event view { view with expiring }
  | asked (offer : TaskOffer) (request : Nat) (new : view.call = none) : Move config broker taskId event view
    { view with
      call := some (offer.runnerId, request, .waiting)
      outcome := none
      history := view.history ++ broker.told offer.runnerId (.taskOfferAccept offer.offerId taskId) }
  | settled (outcome : RunnerOutcome) (open_ : view.outcome = none)
    (accepts : outcome = .accepted →
      ∃ runnerId ∈ broker.knownRunners, event = .runnerMessage runnerId (.taskAccepted taskId)) :
    Move config broker taskId event view { view with outcome := some outcome }
  | givenUp (runnerId : RunnerId) (request : Nat) (waits : view.call = some (runnerId, request, .waiting))
    (notAccepted : view.outcome ≠ some .accepted) :
    Move config broker taskId event view
      { view with call := some (runnerId, request, .givenUp), outcome := none }
  | taken (runnerId : RunnerId) (request : Nat) (object : TaskRequest) (ready : List (Deed Payload))
    (waits : view.call = some (runnerId, request, .waiting)) (accepted : view.outcome = some .accepted)
    (isObject : broker.requests[request]? = some object)
    (isReady : ready = [] ∨ ready = broker.toldRequester object.requesterId (.taskReady object.requestId taskId)) :
    Move config broker taskId event view
      { view with
        task := some (runnerId, object.requesterId)
        call := some (runnerId, request, .taken)
        outcome := none
        history := view.history ++ ready }
  | answered (runnerId : RunnerId) (requesterId : RequesterId) (answer : BrokerMessage.ToRequester Payload)
    (expiring : Bool) (less : expiring = true → view.expiring = true) (answers : Answers config broker taskId event)
    (registered : view.task = some (runnerId, requesterId)) (final : isFinal taskId answer = true) :
    Move config broker taskId event view
      { view with
        answering := true
        expiring
        history := view.history ++ broker.toldRequester requesterId answer }
  | failed (runnerId : RunnerId) (requesterId : RequesterId) (error : TaskFailure Payload)
    (outcome : Option RunnerOutcome) (answers : Answers config broker taskId event)
    (lost : runnerId ∉ broker.knownRunners ∨ ∃ error, event = .deregisterRunner runnerId error)
    (registered : view.task = some (runnerId, requesterId)) (same : outcome = view.outcome ∨ outcome = some .rejected) :
    Move config broker taskId event view
      { view with
        task := none
        outcome
        history := view.history ++ broker.toldRequester requesterId (.taskError taskId error) }
  | dropped (runnerId : RunnerId) (requesterId : RequesterId) (gaveUp : RequesterGaveUp broker taskId event)
    (registered : view.task = some (runnerId, requesterId)) : Move config broker taskId event view
    { view with
      task := none
      history := view.history ++ broker.told runnerId (.taskCancel taskId "Unknown reason") }
  | cancelled (requesterId : RequesterId) (reason : String)
    (cancels : event = .requesterMessage requesterId (.taskCancel taskId reason)) : Move config broker taskId event view
    { view with
      task := none
      history := view.history ++ [.cancel requesterId taskId view.task.isSome] ++
        (view.task.elim [] fun task => broker.told task.1 (.taskCancel taskId reason)) }
  | finished (answering : Bool) (answers : view.answering = true) :
    Move config broker taskId event view { view with task := none, answering }
  | expired (runnerId : RunnerId) (requesterId : RequesterId) (timedOut : event = .taskTimedOut taskId)
    (registered : view.task = some (runnerId, requesterId)) : Move config broker taskId event view
    { view with
      expiring := true
      history := view.history ++ broker.told runnerId (.taskCancel taskId "Task execution timed out") }

/-! ## The views after the parts of a step -/

section

variable (broker : TaskBroker Payload) (taskId : TaskId)

theorem taskView_record (deed : Deed Payload) : (broker.record deed).taskView taskId =
    { broker.taskView taskId with
      history := (broker.taskView taskId).history ++ if concerns taskId deed then [deed] else [] } := by
  cases concerned : concerns taskId deed <;> simp [taskView, record, List.filter_append, concerned]

theorem taskView_messageRunner (runnerId : RunnerId) (message : BrokerMessage.ToRunner Payload) :
    (broker.messageRunner runnerId message).taskView taskId =
      { broker.taskView taskId with
        history := (broker.taskView taskId).history ++
          if concerns taskId (.toRunner runnerId message) then broker.told runnerId message else [] } := by
  unfold messageRunner told
  split
  · rw [taskView_record]
  · simp

theorem taskView_messageRequester (requesterId : RequesterId) (message : BrokerMessage.ToRequester Payload) :
    (broker.messageRequester requesterId message).taskView taskId =
      { broker.taskView taskId with
        history := (broker.taskView taskId).history ++
          if concerns taskId (.toRequester requesterId message) then broker.toldRequester requesterId message
          else [] } := by
  unfold messageRequester toldRequester
  split
  · rw [taskView_record]
  · simp

theorem taskView_messageRunner_of_not {runnerId : RunnerId} {message : BrokerMessage.ToRunner Payload}
    (other : concerns taskId (.toRunner runnerId message) = false) :
    (broker.messageRunner runnerId message).taskView taskId = broker.taskView taskId := by
  rw [taskView_messageRunner, other]
  simp

theorem taskView_messageRequester_of_not {requesterId : RequesterId} {message : BrokerMessage.ToRequester Payload}
    (other : concerns taskId (.toRequester requesterId message) = false) :
    (broker.messageRequester requesterId message).taskView taskId = broker.taskView taskId := by
  rw [taskView_messageRequester, other]
  simp

variable (changed : TaskId)

theorem taskView_setProgress (progress : Progress Payload) :
    (broker.setProgress changed progress).taskView taskId =
      if taskId = changed then
        { broker.taskView taskId with
          call := (broker.taskView taskId).call.map fun call => (call.1, call.2.1, stage progress)
          outcome := (broker.taskView taskId).call.bind fun _ => runnerOutcome progress }
      else broker.taskView taskId := by
  by_cases same : taskId = changed
  · subst same
    rw [if_pos rfl]
    simp only [taskView, setProgress, List.getElem?_modify_eq]
    cases broker.acceptOffers[taskId]? <;> rfl
  · rw [if_neg same]
    simp [taskView, setProgress, List.getElem?_modify_ne _ _ (Ne.symm same)]

theorem taskView_erase :
    ({ broker with tasks := broker.tasks.erase changed } : TaskBroker Payload).taskView taskId =
      if taskId = changed then { broker.taskView taskId with task := none } else broker.taskView taskId := by
  by_cases same : taskId = changed
  · subst same
    simp [taskView]
  · simp [taskView, same, OrderedMap.get?_erase_of_ne _ same]

theorem taskView_setTimeout (timeout : Bool) :
    (broker.setTimeout changed timeout).taskView taskId = broker.taskView taskId := by
  unfold setTimeout
  split
  · rfl
  next task found =>
    by_cases same : taskId = changed
    · subst same
      simp [taskView, found]
    · simp [taskView, OrderedMap.get?_set_of_ne _ _ same]

theorem task_eq_some {runnerId : RunnerId} {requesterId : RequesterId} :
    (broker.taskView taskId).task = some (runnerId, requesterId) ↔
      ∃ task, broker.tasks.get? taskId = some task ∧ task.runnerId = runnerId ∧ task.requesterId = requesterId := by
  simp [taskView]

theorem taskView_cancelTask (reason : String) :
    (broker.cancelTask changed reason).taskView taskId =
      if taskId = changed then
        { broker.taskView taskId with
          task := none
          history := (broker.taskView taskId).history ++
            (broker.taskView taskId).task.elim [] fun task => broker.told task.1 (.taskCancel taskId reason) }
      else broker.taskView taskId := by
  unfold cancelTask
  split
  next missing =>
    split
    next same =>
      subst same
      simp [taskView, missing]
    · rfl
  next task found =>
    rw [taskView_messageRunner, taskView_erase]
    by_cases same : taskId = changed
    · subst same
      simp [concerns, taskView, found, told]
    · simp [concerns, same, Ne.symm same]

theorem taskView_failTask (error : TaskFailure Payload) :
    (broker.failTask changed error).taskView taskId =
      if taskId = changed then
        { broker.taskView taskId with
          task := none
          history := (broker.taskView taskId).history ++
            (broker.taskView taskId).task.elim [] fun task =>
              broker.toldRequester task.2 (.taskError taskId error) }
      else broker.taskView taskId := by
  unfold failTask
  split
  next missing =>
    split
    next same =>
      subst same
      simp [taskView, missing]
    · rfl
  next task found =>
    rw [taskView_messageRequester, taskView_erase]
    by_cases same : taskId = changed
    · subst same
      simp [concerns, isFinal, taskView, found, toldRequester]
    · simp [concerns, isFinal, same, Ne.symm same]

theorem taskView_suspend_finalAnswer :
    ({ broker with suspended := broker.suspended ++ [.finalAnswer changed] } : TaskBroker Payload).taskView taskId =
      { broker.taskView taskId with
        answering := (broker.taskView taskId).answering || decide (taskId = changed) } := by
  simp [taskView]

theorem taskView_suspend_taskTimeout :
    ({ broker with suspended := broker.suspended ++ [.taskTimeout changed] } : TaskBroker Payload).taskView taskId =
      { broker.taskView taskId with
        expiring := (broker.taskView taskId).expiring || decide (taskId = changed) } := by
  simp [taskView]

theorem taskView_answerTask {changed : TaskId} {answer : BrokerMessage.ToRequester Payload}
    (final : isFinal changed answer = true) :
    (broker.answerTask changed answer).taskView taskId =
      if taskId = changed then
        (broker.taskView taskId).task.elim (broker.taskView taskId) fun task =>
          { broker.taskView taskId with
            answering := true
            history := (broker.taskView taskId).history ++ broker.toldRequester task.2 answer }
      else broker.taskView taskId := by
  have concerned : ∀ requesterId, concerns taskId (.toRequester requesterId answer) = decide (taskId = changed) := by
    intro requesterId
    cases answer <;> simp_all [isFinal, concerns, eq_comm]
  unfold answerTask
  split
  next missing =>
    split
    · subst_vars
      simp [taskView, missing]
    · rfl
  next task found =>
    have sent := taskView_messageRequester (broker.setTimeout changed false) taskId task.requesterId answer
    rw [taskView_setTimeout, concerned] at sent
    dsimp only
    rw [taskView_suspend_finalAnswer, sent]
    by_cases same : taskId = changed
    · subst same
      simp [taskView, found, toldRequester, setTimeout]
    · simp [same]

theorem taskView_settleRunner (outcome : RunnerOutcome) :
    (broker.settleRunner changed outcome).taskView taskId = broker.taskView taskId ∨
      (taskId = changed ∧ (broker.taskView taskId).outcome = none ∧
        (broker.settleRunner changed outcome).taskView taskId =
          { broker.taskView taskId with outcome := some outcome }) := by
  unfold settleRunner
  split
  next offer request found =>
    rw [taskView_setProgress]
    by_cases same : taskId = changed
    · subst same
      right
      simp [taskView, found, runnerOutcome, stage]
    · simp [same]
  · exact .inl rfl

theorem taskView_answerOffer (outcome : RunnerOutcome) :
    (broker.answerOffer changed outcome).taskView taskId = broker.taskView taskId ∨
      (taskId = changed ∧ (broker.taskView taskId).outcome = none ∧
        (broker.answerOffer changed outcome).taskView taskId =
          { broker.taskView taskId with outcome := some outcome }) := by
  unfold answerOffer
  split
  · exact taskView_settleRunner broker taskId changed outcome
  · exact .inl rfl

theorem taskView_settleRequester (outcome : RequesterOutcome Payload) :
    (broker.settleRequester changed outcome).taskView taskId = broker.taskView taskId := by
  unfold settleRequester
  split
  next offer request found =>
    rw [taskView_setProgress]
    by_cases same : taskId = changed
    · subst same
      simp [taskView, found, runnerOutcome, stage]
    · simp [same]
  · rfl

theorem taskView_getRunnerOrFailTask :
    (broker.getRunnerOrFailTask changed).1.taskView taskId = broker.taskView taskId ∨
      (taskId = changed ∧ broker.RunnerLost taskId ∧ (broker.getRunnerOrFailTask changed).2 = none ∧
        ∃ runnerId requesterId, (broker.taskView taskId).task = some (runnerId, requesterId) ∧
          runnerId ∉ broker.knownRunners ∧
          (broker.getRunnerOrFailTask changed).1.taskView taskId =
            { broker.taskView taskId with
              task := none
              history := (broker.taskView taskId).history ++
                broker.toldRequester requesterId (.taskError taskId (.cannotFindRunner runnerId)) }) := by
  unfold getRunnerOrFailTask
  split
  · exact .inl rfl
  next task found =>
    split
    · exact .inl rfl
    next lost =>
      rw [taskView_failTask]
      by_cases same : taskId = changed
      · subst same
        right
        refine ⟨rfl, ⟨task, found, lost⟩, rfl, task.runnerId, task.requesterId, ?_, lost, ?_⟩
        · simp [taskView, found]
        · simp [taskView, found]
      · simp [same]

theorem getRunnerOrFailTask_none (none_ : (broker.getRunnerOrFailTask changed).2 = none) :
    (broker.getRunnerOrFailTask changed).1.tasks.get? changed = none := by
  unfold getRunnerOrFailTask at *
  split
  next missing => exact missing
  next task found =>
    rw [found] at none_
    dsimp only at none_
    split
    next known =>
      rw [if_pos known] at none_
      cases none_
    · simp only [failTask, found, messageRequester]
      split <;> simp [record]

end

/-! ## Every step is a move -/

section

variable {broker : TaskBroker Payload} (taskId : TaskId) (config : TaskRunnersConfig) (event : Event Payload)

theorem taskView_acceptOffer (offer : TaskOffer) (request : Nat) :
    (broker.acceptOffer offer request).taskView taskId =
      if taskId = broker.acceptOffers.length then
        { broker.taskView taskId with
          call := some (offer.runnerId, request, .waiting)
          outcome := none
          history := (broker.taskView taskId).history ++
            broker.told offer.runnerId (.taskOfferAccept offer.offerId taskId) }
      else broker.taskView taskId := by
  unfold acceptOffer
  dsimp only
  rw [taskView_messageRunner]
  by_cases same : taskId = broker.acceptOffers.length
  · subst same
    simp [taskView, concerns, stage, runnerOutcome, told]
  · have call : (broker.acceptOffers ++ [⟨offer, request, .waitingForRunner none⟩])[taskId]? =
        broker.acceptOffers[taskId]? := by grind
    simp [taskView, concerns, same, Ne.symm same, call]

theorem TaskView.unregistered {view : TaskView Payload} (unregistered : view.task = none)
    (more : RunnerId × RequesterId → List (Deed Payload)) :
    { view with task := none, history := view.history ++ view.task.elim [] more } = view := by
  obtain ⟨task, _, _, _, _, _⟩ := view
  subst unregistered
  simp

/-- Either nothing happens to the task, or a runner is asked to take it. -/
def AskedOrSame (broker : TaskBroker Payload) (taskId : TaskId) (before after : TaskView Payload) : Prop :=
  after = before ∨ ∃ (offer : TaskOffer) (request : Nat), before.call = none ∧ after =
    { before with
      call := some (offer.runnerId, request, .waiting)
      outcome := none
      history := before.history ++ broker.told offer.runnerId (.taskOfferAccept offer.offerId taskId) }

theorem asked_settleRequest (request : Nat) :
    AskedOrSame broker taskId (broker.taskView taskId) ((broker.settleRequest request).taskView taskId) := by
  unfold settleRequest
  split
  · exact .inl rfl
  next object _ =>
    split
    · exact .inl rfl
    · split
      · exact .inl rfl
      next offer _ =>
        rw [taskView_acceptOffer]
        split
        next isNew =>
          right
          refine ⟨offer, request, ?_, rfl⟩
          rw [isNew]
          simp [taskView, setAcceptInProgress]
        · exact .inl rfl

theorem knownRunners_settleRequest (request : Nat) :
    (broker.settleRequest request).knownRunners = broker.knownRunners := by
  unfold settleRequest
  split
  · rfl
  · split
    · rfl
    · split
      · rfl
      · unfold acceptOffer messageRunner
        dsimp only
        split <;> rfl

theorem asked_settleTasks :
    AskedOrSame broker taskId (broker.taskView taskId) (broker.settleTasks.taskView taskId) := by
  have folded : broker.settleTasks.knownRunners = broker.knownRunners ∧
      AskedOrSame broker taskId (broker.taskView taskId) (broker.settleTasks.taskView taskId) := by
    apply Loop.foldl_preserves fun state : TaskBroker Payload => state.knownRunners = broker.knownRunners ∧
      AskedOrSame broker taskId (broker.taskView taskId) (state.taskView taskId)
    · intro request _ state ⟨same, asked⟩
      refine ⟨(knownRunners_settleRequest request).trans same, ?_⟩
      rcases @asked_settleRequest _ state taskId request with one | ⟨offer, request', new, one⟩
      · rw [one]
        exact asked
      · rcases asked with before | ⟨_, _, _, before⟩
        · rw [before] at new one
          exact .inr ⟨offer, request', new, by simpa [told, same] using one⟩
        · -- A task that a runner is asked to take is not new any more.
          rw [before] at new
          cases new
    · exact ⟨rfl, .inl rfl⟩
  exact folded.2

variable {taskId config event}

theorem Move.of_asked {before after : TaskView Payload} (asked : AskedOrSame broker taskId before after) :
    Move config broker taskId event before after := by
  rcases asked with rfl | ⟨offer, request, new, rfl⟩
  · exact .same
  · exact .asked offer request new

variable {changed : TaskId}

theorem move_answerOffer {outcome : RunnerOutcome}
    (accepts : outcome = .accepted →
      ∃ runnerId ∈ broker.knownRunners, event = .runnerMessage runnerId (.taskAccepted changed)) :
    Move config broker taskId event (broker.taskView taskId)
      ((broker.answerOffer changed outcome).taskView taskId) := by
  rcases taskView_answerOffer broker taskId changed outcome with same | ⟨rfl, open_, next⟩
  · rw [same]
    exact .same
  · rw [next]
    exact .settled outcome open_ accepts

theorem move_answerTask {answer : BrokerMessage.ToRequester Payload} (final : isFinal changed answer = true)
    (answers : Answers config broker changed event) :
    Move config broker taskId event (broker.taskView taskId) ((broker.answerTask changed answer).taskView taskId) := by
  rw [taskView_answerTask broker taskId final]
  split
  next same =>
    subst same
    cases registered : (broker.taskView taskId).task with
    | none => exact .same
    | some task =>
      exact .answered task.1 task.2 answer _ id answers registered final
  · exact .same

theorem move_passToRunner {message : BrokerMessage.ToRunner Payload}
    (other : ∀ runnerId, concerns taskId (.toRunner runnerId message) = false)
    (answers : broker.RunnerLost changed → Answers config broker changed event) :
    Move config broker taskId event (broker.taskView taskId)
      ((broker.passToRunner changed message).taskView taskId) := by
  have found := taskView_getRunnerOrFailTask broker taskId changed
  unfold passToRunner
  split
  next after result =>
    rw [result] at found
    rcases found with same | ⟨rfl, lost, _, runnerId, requesterId, registered, unknown, next⟩
    · rw [same]
      exact .same
    · rw [next]
      exact .failed runnerId requesterId _ _ (answers lost) (.inl unknown) registered (.inl rfl)
  next after runnerId result =>
    rw [result] at found
    rw [taskView_messageRunner_of_not _ _ (other runnerId)]
    rcases found with same | ⟨_, _, none_, _⟩
    · rw [same]
      exact .same
    · cases none_

variable {call : AcceptOffer Payload}

theorem move_runnerSettled {outcome : RunnerOutcome} (found : broker.acceptOffers[changed]? = some call)
    (settled : call.progress = .waitingForRunner (some outcome)) :
    Move config broker taskId event (broker.taskView taskId)
      ((broker.runnerSettled changed call.offer call.request outcome).taskView taskId) := by
  -- An offer that is not taken ends the call of its own task and leaves every other view as it is.
  have notTaken : outcome ≠ .accepted → Move config broker taskId event (broker.taskView taskId)
      ((broker.offerNotTaken changed call.request).taskView taskId) := by
    intro notAccepted
    have next := taskView_setProgress (broker.setAcceptInProgress call.request false) taskId changed .givenUp
    change Move config broker taskId event _ (((broker.setAcceptInProgress call.request false).setProgress changed
      .givenUp).taskView taskId)
    rw [next]
    split
    next same =>
      subst same
      have waits : (broker.taskView taskId).call = some (call.offer.runnerId, call.request, .waiting) := by
        simp [taskView, found, settled, stage]
      have open_ : (broker.taskView taskId).outcome ≠ some .accepted := by
        simp [taskView, found, settled, runnerOutcome, notAccepted]
      have given := @Move.givenUp _ config broker taskId event _ _ _ waits open_
      change Move config broker taskId event _ { broker.taskView taskId with
        call := (broker.taskView taskId).call.map _, outcome := (broker.taskView taskId).call.bind _ }
      rw [waits]
      exact given
    · exact .same
  cases outcome with
  | rejected => exact notTaken (by simp)
  | timedOut => exact notTaken (by simp)
  | deferred => exact notTaken (by simp)
  | accepted =>
    simp only [runnerSettled]
    split
    · exact .same
    next object isObject =>
      unfold offerTaken
      dsimp only
      by_cases same : taskId = changed
      · subst same
        have waits : (broker.taskView taskId).call = some (call.offer.runnerId, call.request, .waiting) := by
          simp [taskView, found, settled, stage]
        have accepted : (broker.taskView taskId).outcome = some .accepted := by
          simp [taskView, found, settled, runnerOutcome]
        split
        · have taken := @Move.taken _ config broker taskId event _ _ _ object _ waits accepted isObject (.inr rfl)
          rw [taskView_setProgress, taskView_messageRequester]
          simpa [taskView, found, concerns, stage, runnerOutcome, toldRequester] using taken
        · have taken := @Move.taken _ config broker taskId event _ _ _ object [] waits accepted isObject (.inl rfl)
          rw [taskView_setProgress]
          simpa [taskView, found, stage, runnerOutcome] using taken
      -- The call is about another task: neither its progress nor its entry belongs to the view.
      · have other : ∀ after : TaskBroker Payload, ∀ progress,
            after.taskView taskId = broker.taskView taskId →
            Move config broker taskId event (broker.taskView taskId)
              ((after.setProgress changed progress).taskView taskId) := by
          intro after progress unchanged
          rw [taskView_setProgress, if_neg same, unchanged]
          exact .same
        have elsewhere : ∀ task, (broker.tasks.set changed task).get? taskId = broker.tasks.get? taskId := fun task =>
          OrderedMap.get?_set_of_ne _ _ same
        split
        · apply other
          rw [taskView_messageRequester_of_not _ _ (by simp [concerns, Ne.symm same])]
          simp [taskView, elsewhere]
        · apply other
          simp [taskView, elsewhere]

/-- The task goes on with its requester: its settings are passed on, it is dropped, or its runner is lost. -/
theorem move_requesterSettled {outcome : RequesterOutcome Payload} (found : broker.acceptOffers[changed]? = some call)
    (settled : call.progress = .waitingForRequester (some outcome)) :
    Move config broker taskId (.acceptOfferGoesOn changed) (broker.taskView taskId)
      ((broker.requesterSettled changed outcome).taskView taskId) := by
  -- The progress of a call that is taken is not part of the view.
  have isOver : ∀ (after : TaskBroker Payload) (progress : Progress Payload),
      (after.taskView taskId).call = (broker.taskView taskId).call →
      (after.taskView taskId).outcome = (broker.taskView taskId).outcome →
      stage progress = .taken → runnerOutcome progress = none →
      (after.setProgress changed progress).taskView taskId = after.taskView taskId := by
    intro after progress sameCall sameOutcome isTaken noOutcome
    rw [taskView_setProgress]
    split
    next same =>
      subst same
      have here : (broker.taskView taskId).call = some (call.offer.runnerId, call.request, .taken) := by
        simp [taskView, found, settled, stage]
      have none_ : (broker.taskView taskId).outcome = none := by simp [taskView, found, settled, runnerOutcome]
      rw [here] at sameCall
      rw [none_] at sameOutcome
      generalize after.taskView taskId = view at sameCall sameOutcome ⊢
      obtain ⟨task, viewCall, viewOutcome, answering, expiring, history⟩ := view
      simp_all
    · rfl
  cases outcome with
  | timedOut =>
    have dropped := taskView_cancelTask broker taskId changed "Unknown reason"
    simp only [requesterSettled]
    rw [isOver _ _ _ _ rfl rfl]
    · rw [dropped]
      split
      next same =>
        subst same
        rcases Option.eq_none_or_eq_some (broker.taskView taskId).task with none_ | ⟨task, registered⟩
        · rw [TaskView.unregistered none_]
          exact .same
        · rw [registered]
          exact .dropped task.1 task.2 ⟨rfl, by simp [found, settled]⟩ registered
      · exact .same
    all_goals
      rw [dropped]
      split <;> rfl
  | settings settings =>
    have got := taskView_getRunnerOrFailTask broker taskId changed
    simp only [requesterSettled]
    split
    next after runnerId result =>
      rw [result] at got
      rcases got with same | ⟨_, _, none_, _⟩
      · rw [isOver _ _ (by rw [same]) (by rw [same]) rfl rfl, same]
        exact .same
      · cases none_
    next after result =>
      rw [result] at got
      have missing : after.tasks.get? changed = none := by
        have none_ := getRunnerOrFailTask_none broker changed (by rw [result])
        rwa [result] at none_
      -- Without a task there is nothing to cancel.
      have nothing : after.cancelTask changed "Unknown reason" = after := by simp [cancelTask, missing]
      rw [nothing]
      rcases got with same | ⟨rfl, lost, _, runnerId, requesterId, registered, unknown, next⟩
      · rw [isOver _ _ (by rw [same]) (by rw [same]) rfl rfl, same]
        exact .same
      · rw [isOver _ _ (by rw [next]) (by rw [next]) rfl rfl, next]
        have answers : Answers config broker taskId (.acceptOfferGoesOn taskId) :=
          ⟨rfl, lost, call, found, settings, settled⟩
        exact .failed runnerId requesterId _ _ answers (.inl unknown) registered (.inl rfl)

theorem taskView_sendTaskSettings (found : broker.acceptOffers[changed]? = some call) {runnerId : RunnerId}
    {settings : Payload} (settled : call.progress = .sendingSettings runnerId settings) :
    (broker.sendTaskSettings changed runnerId settings).taskView taskId = broker.taskView taskId := by
  have isOver : (broker.setProgress changed .over).taskView taskId = broker.taskView taskId := by
    rw [taskView_setProgress]
    split
    next same =>
      subst same
      simp [taskView, found, settled, stage, runnerOutcome]
    · rfl
  unfold sendTaskSettings
  dsimp only
  split
  · exact isOver
  · rw [taskView_messageRunner_of_not _ _ (by simp [concerns]), taskView_setTimeout, isOver]

theorem move_acceptOfferGoesOn :
    Move config broker taskId (.acceptOfferGoesOn changed) (broker.taskView taskId)
      ((broker.acceptOfferGoesOn changed).taskView taskId) := by
  unfold acceptOfferGoesOn
  split
  · exact .same
  next call found =>
    split
    next outcome settled => exact move_runnerSettled found settled
    next outcome settled => exact move_requesterSettled found settled
    next runnerId settings settled =>
      rw [taskView_sendTaskSettings found settled]
      exact .same
    all_goals exact .same

/-! ### Runners, timers and messages -/

/-- What happens to one task while the tasks of a lost runner fail. -/
def failAndReject (error : TaskFailure Payload) (broker : TaskBroker Payload) (entry : TaskId × Task) :
    TaskBroker Payload :=
  (broker.failTask entry.1 error).handleRunnerReject entry.1

theorem requesters_failAndReject (error : TaskFailure Payload) (entry : TaskId × Task) :
    (failAndReject error broker entry).requesters = broker.requesters := by
  unfold failAndReject handleRunnerReject answerOffer settleRunner setProgress failTask messageRequester record
  grind

theorem taskView_failAndReject_of_ne (error : TaskFailure Payload) {entry : TaskId × Task} (other : taskId ≠ entry.1) :
    (failAndReject error broker entry).taskView taskId = broker.taskView taskId := by
  unfold failAndReject handleRunnerReject
  rcases taskView_answerOffer (broker.failTask entry.1 error) taskId entry.1 .rejected with same | ⟨same, _⟩
  · rw [same, taskView_failTask, if_neg other]
  · exact absurd same other

theorem taskView_foldl_failAndReject (error : TaskFailure Payload) (entries : List (TaskId × Task))
    (others : taskId ∉ entries.map Prod.fst) :
    (entries.foldl (failAndReject error) broker).taskView taskId = broker.taskView taskId ∧
      (entries.foldl (failAndReject error) broker).requesters = broker.requesters := by
  apply Loop.foldl_preserves fun state : TaskBroker Payload =>
    state.taskView taskId = broker.taskView taskId ∧ state.requesters = broker.requesters
  · intro entry member state kept
    have other : taskId ≠ entry.1 := fun same => others (same ▸ List.mem_map_of_mem member)
    exact ⟨(taskView_failAndReject_of_ne error other).trans kept.1, (requesters_failAndReject error entry).trans kept.2⟩
  · exact ⟨rfl, rfl⟩

theorem move_deregisterRunner (runnerId : RunnerId) (error : TaskFailure Payload) :
    Move config broker taskId (.deregisterRunner runnerId error) (broker.taskView taskId)
      ((broker.deregisterRunner runnerId error).taskView taskId) := by
  let start : TaskBroker Payload := { broker with
    knownRunners := broker.knownRunners.filter (· ≠ runnerId)
    pendingTaskOffers := broker.pendingTaskOffers.filter fun offer => offer.runnerId ≠ runnerId }
  let lost := broker.tasks.entries.filter fun entry => entry.2.runnerId = runnerId
  change Move config broker taskId _ _ ((lost.foldl (failAndReject error) start).taskView taskId)
  have distinct : (lost.map Prod.fst).Nodup := broker.tasks.nodup_keys.sublist (List.filter_sublist.map _)
  by_cases inside : taskId ∈ lost.map Prod.fst
  · -- The task fails once, since its id is a key of the tasks once.
    obtain ⟨⟨taskId', task⟩, member, same⟩ := List.mem_map.mp inside
    dsimp only at same
    subst same
    obtain ⟨before, after, isSplit⟩ := List.append_of_mem member
    rw [isSplit, List.map_append, List.map_cons] at distinct
    have notBefore : taskId' ∉ before.map Prod.fst := fun earlier =>
      (List.nodup_append.mp distinct).2.2 _ earlier _ List.mem_cons_self rfl
    have notAfter : taskId' ∉ after.map Prod.fst := (List.nodup_cons.mp (List.nodup_append.mp distinct).2.1).1
    have registered := List.mem_filter.mp member
    have found : broker.tasks.get? taskId' = some task := OrderedMap.get?_eq_some.mpr registered.1
    have isLost : task.runnerId = runnerId := by simpa using registered.2
    obtain ⟨viewBefore, requestersBefore⟩ := @taskView_foldl_failAndReject _ start _ error before notBefore
    rw [isSplit, List.foldl_append, List.foldl_cons, (taskView_foldl_failAndReject error after notAfter).1]
    generalize before.foldl (failAndReject error) start = middle at viewBefore requestersBefore
    have viewStart : middle.taskView taskId' = broker.taskView taskId' := viewBefore
    have view : (broker.taskView taskId').task = some (task.runnerId, task.requesterId) := by simp [taskView, found]
    have failed : (middle.failTask taskId' error).taskView taskId' = { broker.taskView taskId' with
        task := none
        history := (broker.taskView taskId').history ++
          broker.toldRequester task.requesterId (.taskError taskId' error) } := by
      have sameRequesters : middle.requesters = broker.requesters := requestersBefore
      rw [taskView_failTask, if_pos rfl, viewStart, view]
      simp [toldRequester, sameRequesters]
    have answers : Answers config broker taskId' (.deregisterRunner runnerId error) := ⟨task, found, isLost⟩
    have goneToo : task.runnerId ∉ broker.knownRunners ∨
        ∃ error', (Event.deregisterRunner runnerId error) = .deregisterRunner task.runnerId error' :=
      .inr ⟨error, by rw [isLost]⟩
    unfold failAndReject handleRunnerReject
    rcases taskView_answerOffer (middle.failTask taskId' error) taskId' taskId' .rejected with same | ⟨_, _, same⟩
    · rw [same, failed]
      exact .failed _ _ error _ answers goneToo view (.inl rfl)
    · rw [same, failed]
      exact .failed _ _ error _ answers goneToo view (.inr rfl)
  · rw [(taskView_foldl_failAndReject error lost inside).1]
    exact .same

theorem move_handleTaskTimeout :
    Move config broker taskId (.taskTimedOut changed) (broker.taskView taskId)
      ((broker.handleTaskTimeout config changed).taskView taskId) := by
  unfold handleTaskTimeout
  split
  · exact .same
  next task found =>
    split
    · exact .same
    next timer =>
      have isSet : task.timeout = true := by simpa using timer
      dsimp only
      split
      -- In internal mode the task is answered at once; otherwise its runner is told, and the rest is suspended.
      next internal =>
        have view : ((broker.setTimeout changed false).record .timedOutDuringTask).taskView taskId =
            broker.taskView taskId := by
          rw [taskView_record, taskView_setTimeout]
          simp [concerns]
        have final : isFinal changed (.taskError changed (.timeout config.taskTimeout) :
            BrokerMessage.ToRequester Payload) = true := by simp [isFinal]
        unfold taskErrorHandler
        rw [taskView_answerTask _ _ final, view]
        split
        next same =>
          subst same
          have registered : (broker.taskView taskId).task = some (task.runnerId, task.requesterId) := by
            simp [taskView, found]
          have answers : Answers config broker taskId (.taskTimedOut taskId) := ⟨rfl, internal, task, found, isSet⟩
          have sameRequesters : ((broker.setTimeout taskId false).record .timedOutDuringTask).requesters =
              broker.requesters := by simp [setTimeout, found, record]
          rw [registered]
          have answered := @Move.answered _ config broker taskId (.taskTimedOut taskId) _ _ _ _ _ id answers registered
            final
          simpa [toldRequester, sameRequesters] using answered
        · exact .same
      · rw [taskView_suspend_taskTimeout, taskView_messageRunner, taskView_setTimeout]
        by_cases same : taskId = changed
        · subst same
          have registered : (broker.taskView taskId).task = some (task.runnerId, task.requesterId) := by
            simp [taskView, found]
          have expired := @Move.expired _ config broker taskId (.taskTimedOut taskId) _ _ _ rfl registered
          simpa [concerns, told, setTimeout, found] using expired
        · simpa [concerns, same, Ne.symm same] using
            @Move.same _ config broker taskId (.taskTimedOut changed) (broker.taskView taskId)

theorem contains_erase_of_ne {calls : List Suspended} {call other : Suspended} (different : other ≠ call) :
    (calls.erase call).contains other = calls.contains other := by
  rw [Bool.eq_iff_iff, List.contains_iff_mem, List.contains_iff_mem]
  exact List.mem_erase_of_ne different

theorem contains_of_erase {calls : List Suspended} {call other : Suspended}
    (inside : (calls.erase call).contains other = true) : calls.contains other = true := by
  rw [List.contains_iff_mem] at *
  exact List.mem_of_mem_erase inside

theorem move_goOn {call : Suspended} : Move config broker taskId (.goesOn call) (broker.taskView taskId)
    ((broker.goOn config call).taskView taskId) := by
  unfold goOn
  split
  · exact .same
  next waits =>
    have suspended : call ∈ broker.suspended := not_not.mp waits
    cases call with
    | finalAnswer changed =>
      -- Only what was suspended about this task counts for its view.
      by_cases same : taskId = changed
      · subst same
        have finished := @Move.finished _ config broker taskId (.goesOn (.finalAnswer taskId)) (broker.taskView taskId)
          ((broker.suspended.erase (.finalAnswer taskId)).contains (.finalAnswer taskId))
          (List.contains_iff_mem.mpr suspended)
        simpa [taskView, contains_erase_of_ne] using finished
      · have unchanged : ({ broker with
            suspended := broker.suspended.erase (.finalAnswer changed)
            tasks := broker.tasks.erase changed } : TaskBroker Payload).taskView taskId = broker.taskView taskId := by
          simp only [taskView, OrderedMap.get?_erase_of_ne _ same]
          rw [contains_erase_of_ne (by simpa using same), contains_erase_of_ne (by simp)]
        exact unchanged ▸ .same
    | taskTimeout changed =>
      have final : isFinal changed (.taskError changed (.timeout config.taskTimeout) :
          BrokerMessage.ToRequester Payload) = true := by simp [isFinal]
      unfold taskErrorHandler
      rw [taskView_answerTask _ _ final]
      have view : ({ broker with suspended := broker.suspended.erase (.taskTimeout changed) } :
          TaskBroker Payload).taskView taskId = { broker.taskView taskId with
            expiring := (broker.suspended.erase (.taskTimeout changed)).contains (.taskTimeout taskId) } := by
        simp only [taskView]
        rw [contains_erase_of_ne (by simp)]
      by_cases same : taskId = changed
      · subst same
        rw [if_pos rfl, view]
        have less : (broker.suspended.erase (.taskTimeout taskId)).contains (.taskTimeout taskId) = true →
            (broker.taskView taskId).expiring = true := contains_of_erase
        rcases Option.eq_none_or_eq_some (broker.taskView taskId).task with none_ | ⟨task, registered⟩
        · have isOver := @Move.timeoutOver _ config broker taskId (.goesOn (.taskTimeout taskId)) _ _ less
          simpa [none_] using isOver
        · have answers : Answers config broker taskId (.goesOn (.taskTimeout taskId)) := ⟨rfl, suspended⟩
          have answered := @Move.answered _ config broker taskId _ _ _ _ _ _ less answers registered final
          simpa [registered, toldRequester] using answered
      · rw [if_neg same, view, contains_erase_of_ne (by simpa using same)]
        exact .same

theorem move_onRunnerMessage (runnerId : RunnerId) (message : RunnerMessage.ToBroker Payload) :
    Move config broker taskId (.runnerMessage runnerId message) (broker.taskView taskId)
      ((broker.onRunnerMessage runnerId message).taskView taskId) := by
  unfold onRunnerMessage
  split
  · exact .same
  next registered =>
    have known : runnerId ∈ broker.knownRunners := not_not.mp registered
    cases message with
    | taskAccepted accepted => exact move_answerOffer fun _ => ⟨runnerId, known, rfl⟩
    | taskRejected | taskDeferred => exact move_answerOffer (by simp)
    | taskOffer offerId taskType validFor =>
      have asked := @asked_settleTasks _ { broker with
        pendingTaskOffers := broker.pendingTaskOffers ++ [broker.offerOf runnerId offerId taskType validFor] } taskId
      exact .of_asked asked
    | taskDone answered data => exact move_answerTask (by simp [isFinal]) ⟨rfl, known⟩
    | taskError answered error => exact move_answerTask (by simp [isFinal]) ⟨rfl, known⟩
    | taskDataRequest | nodeTypesRequest | rpc =>
      simp only [handleDataRequest, handleNodeTypesRequest, handleRpcRequest, passToRequester]
      split
      · exact .same
      · rw [taskView_messageRequester_of_not _ _ (by simp [concerns, isFinal])]
        exact .same
    | info => exact .same

theorem move_onRequesterMessage (requesterId : RequesterId) (message : RequesterMessage.ToBroker Payload) :
    Move config broker taskId (.requesterMessage requesterId message) (broker.taskView taskId)
      ((broker.onRequesterMessage requesterId message).taskView taskId) := by
  cases message with
  | taskSettings changed settings =>
    simp only [onRequesterMessage, handleRequesterAccept]
    split
    · have unchanged := taskView_settleRequester broker taskId changed (.settings settings)
      exact (show _ = broker.taskView taskId from unchanged) ▸ .same
    · exact .same
  | taskCancel changed reason =>
    simp only [onRequesterMessage, requesterCancels]
    rw [taskView_cancelTask, taskView_record]
    by_cases same : taskId = changed
    · subst same
      have cancelled := @Move.cancelled _ config broker taskId
        (.requesterMessage requesterId (.taskCancel taskId reason))
        (broker.taskView taskId) requesterId reason rfl
      have has : broker.tasks.has taskId = (broker.taskView taskId).task.isSome := by
        simp [taskView, OrderedMap.has]
      simpa [concerns, told, record, has] using cancelled
    · simpa [concerns, same, Ne.symm same] using
        @Move.same _ config broker taskId (.requesterMessage requesterId (.taskCancel changed reason))
          (broker.taskView taskId)
  | taskRequest requestId taskType =>
    simp only [onRequesterMessage, taskRequested]
    have asked := @asked_settleTasks _ { broker with
      requests := broker.requests ++ [{ requestId, requesterId, taskType }]
      pendingTaskRequests := broker.pendingTaskRequests ++ [broker.requests.length]
      stillConnected :=
        if requesterId ∈ broker.requesters then broker.stillConnected ++ [broker.requests.length]
        else broker.stillConnected } taskId
    exact .of_asked asked
  | taskDataResponse | nodeTypesResponse | rpcResponse =>
    exact move_passToRunner (fun _ => by simp [concerns]) fun lost => ⟨rfl, lost⟩

theorem move_step (config : TaskRunnersConfig) (broker : TaskBroker Payload) (event : Event Payload) (taskId : TaskId) :
    Move config broker taskId event (broker.taskView taskId) ((broker.step config event).taskView taskId) := by
  cases event with
  | registerRunner runnerId =>
    have unchanged : (broker.registerRunner runnerId).taskView taskId = broker.taskView taskId := by
      unfold registerRunner
      rw [taskView_messageRunner_of_not _ _ (by simp [concerns])]
      rfl
    exact unchanged ▸ .same
  | deregisterRunner runnerId error => exact move_deregisterRunner runnerId error
  | registerRequester requesterId => exact .same
  | deregisterRequester requesterId => exact .same
  | runnerMessage runnerId message => exact move_onRunnerMessage runnerId message
  | requesterMessage requesterId message => exact move_onRequesterMessage requesterId message
  | runnerTimedOut changed =>
    rcases taskView_settleRunner broker taskId changed .timedOut with same | ⟨_, open_, next⟩
    · exact same ▸ .same
    · exact next ▸ .settled .timedOut open_ (by simp)
  | requesterTimedOut changed => exact taskView_settleRequester broker taskId changed .timedOut ▸ .same
  | taskTimedOut changed => exact move_handleTaskTimeout
  | acceptOfferGoesOn changed => exact move_acceptOfferGoesOn
  | goesOn call => exact move_goOn
  | timePasses duration => exact .same

end

end N8n.TaskRunners.TaskBroker
