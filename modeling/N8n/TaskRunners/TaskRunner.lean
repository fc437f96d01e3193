import N8n.Library.OrderedMap
import N8n.Library.Runs
import N8n.TaskRunners.MessageTypes

/-! # The task runner

`packages/@n8n/task-runner/src/task-runner.ts` and `task-state.ts`: the life of a
task between the offer that the broker accepts and the answer.  What a task asks
for while it is executed (data, node types, calls) and the idle timer are left out.
-/

namespace N8n.TaskRunners

variable {Payload : Type}

inductive TaskStatus where
  | waitingForSettings
  | running
  | abortingCancelled
  | abortingTimeout
deriving DecidableEq, Repr

/-- The state of a task; `timeoutTimer` is set as long as the timer can fire. -/
structure TaskState where
  status : TaskStatus := .waitingForSettings
  timeoutTimer : Bool := true
deriving DecidableEq, Repr

/-- What came up with a status that was not expected. -/
inductive Source where
  | settings
  | timeout
  | completion
deriving DecidableEq, Repr

/-- What a runner does, as seen from outside. -/
inductive Happening (Payload : Type) where
  | sent (message : RunnerMessage.ToBroker Payload)
  /-- A cancel arrived for a task that was waiting for settings or running. -/
  | cancelled (taskId : TaskId)
  /-- The task left the running tasks. -/
  | left (taskId : TaskId)
  /-- `TaskState.throwUnexpectedTaskStatus` -/
  | unexpectedTaskStatus (taskId : TaskId) (status : TaskStatus) (source : Source)
deriving DecidableEq, Repr

/-- What does not change while a runner runs. -/
structure TaskRunnerOpts where
  name : String
  taskType : String
  maxConcurrency : Nat
  /-- How long (in seconds) a task is allowed to take for completion, else the task will be aborted. -/
  taskTimeout : Nat
  /-- The random number below 500 that is drawn for an offer. -/
  randomInt : OfferId → Nat

structure TaskRunner (Payload : Type) where
  canSendOffers : Bool
  /-- The states of all tasks that were accepted; those in `runningTasks` have not been discarded. -/
  taskStates : OrderedMap TaskId TaskState
  runningTasks : List TaskId
  /-- The open offers with the time until which they are valid. -/
  openOffers : OrderedMap OfferId Nat
  /-- The calls of `executeTask` that have not settled. -/
  executions : List TaskId
  /-- The number of offers made so far. -/
  offers : Nat
  log : List (Happening Payload)

namespace TaskRunner

def OFFER_VALID_TIME_MS : Nat := 5000

def OFFER_VALID_EXTRA_MS : Nat := 100

/-- Converts milliseconds to nanoseconds -/
def msToNs (ms : Nat) : Nat := ms * 1000000

def new : TaskRunner Payload :=
  { canSendOffers := false, taskStates := ∅, runningTasks := [], openOffers := ∅, executions := [], offers := 0,
    log := [] }

def record (runner : TaskRunner Payload) (happening : Happening Payload) : TaskRunner Payload :=
  { runner with log := runner.log ++ [happening] }

def send (runner : TaskRunner Payload) (message : RunnerMessage.ToBroker Payload) : TaskRunner Payload :=
  runner.record (.sent message)

def startTaskOffers (runner : TaskRunner Payload) : TaskRunner Payload := { runner with canSendOffers := true }

def stopTaskOffers (runner : TaskRunner Payload) : TaskRunner Payload := { runner with canSendOffers := false }

variable (opts : TaskRunnerOpts) (now : Nat)

def deleteStaleOffers (runner : TaskRunner Payload) : TaskRunner Payload :=
  { runner with openOffers := runner.openOffers.filterValues fun validUntil => decide (now ≤ validUntil) }

def sendOffer (runner : TaskRunner Payload) : TaskRunner Payload :=
  -- Add a bit of randomness so that not all offers expire at the same time
  let validForInMs := OFFER_VALID_TIME_MS + opts.randomInt runner.offers
  -- Add a little extra time to account for latency
  let validUntil := now + msToNs (validForInMs + OFFER_VALID_EXTRA_MS)
  { runner with
    openOffers := runner.openOffers.set runner.offers validUntil
    offers := runner.offers + 1 }.send (.taskOffer runner.offers opts.taskType validForInMs)

def sendOffers (runner : TaskRunner Payload) : TaskRunner Payload :=
  let runner := runner.deleteStaleOffers now
  if ¬ runner.canSendOffers then runner
  else
    let offersToSend := opts.maxConcurrency - (runner.openOffers.size + runner.runningTasks.length)
    (sendOffer opts now)^[offersToSend] runner

def hasOpenTasks (runner : TaskRunner Payload) : Bool := runner.runningTasks.length < opts.maxConcurrency

def offerAccepted (runner : TaskRunner Payload) (offerId : OfferId) (taskId : TaskId) : TaskRunner Payload :=
  if ¬ runner.hasOpenTasks opts then
    { runner with openOffers := runner.openOffers.erase offerId }.send (.taskRejected taskId "No open task slots")
  else match runner.openOffers.get? offerId with
    | none => runner.send (.taskRejected taskId "Offer expired and no open task slots")
    | some _ =>
      { runner with
        openOffers := runner.openOffers.erase offerId
        taskStates := runner.taskStates.set taskId {}
        runningTasks := runner.runningTasks.insert taskId }.send (.taskAccepted taskId)

/-- `runningTasks.get(taskId)` -/
def runningTask (runner : TaskRunner Payload) (taskId : TaskId) : Option TaskState :=
  if taskId ∈ runner.runningTasks then runner.taskStates.get? taskId else none

def setState (runner : TaskRunner Payload) (taskId : TaskId) (state : TaskState) : TaskRunner Payload :=
  { runner with taskStates := runner.taskStates.set taskId state }

/-- Finishes task by removing it from the running tasks and sending new offers -/
def finishTask (runner : TaskRunner Payload) (taskId : TaskId) (state : TaskState) : TaskRunner Payload :=
  let runner := runner.setState taskId { state with timeoutTimer := false }
  let runner :=
    if taskId ∈ runner.runningTasks then
      { runner with runningTasks := runner.runningTasks.erase taskId }.record (.left taskId)
    else runner
  runner.sendOffers opts now

def taskCancelled (runner : TaskRunner Payload) (taskId : TaskId) : TaskRunner Payload :=
  match runner.runningTask taskId with
  | none => runner
  | some state => match state.status with
    -- If the cancelled task hasn't received settings yet, we can finish it
    | .waitingForSettings => (runner.record (.cancelled taskId)).finishTask opts now taskId state
    -- If the task has already timed out or is already cancelled, we can
    -- ignore the cancellation
    | .abortingTimeout | .abortingCancelled => runner
    | .running => (runner.record (.cancelled taskId)).setState taskId { state with status := .abortingCancelled }

def taskTimedOut (runner : TaskRunner Payload) (taskId : TaskId) : TaskRunner Payload :=
  match runner.runningTask taskId with
  | none => runner
  | some state => match state.status with
    -- If we are still waiting for settings for the task, we can error the
    -- task immediately
    | .waitingForSettings =>
      (runner.send (.taskError taskId (.timeout opts.taskTimeout))).finishTask opts now taskId state
    -- This should never happen, the timeout timer should only fire once
    | .abortingTimeout => runner.record (.unexpectedTaskStatus taskId state.status .timeout)
    -- If we are currently executing the task, abort the execution and
    -- mark the task as timed out
    | .running => runner.setState taskId { state with status := .abortingTimeout }
    -- If the task is already cancelling, we can ignore the timeout
    | .abortingCancelled => runner

/-- The settings themselves only matter to the execution that starts. -/
def receivedSettings (runner : TaskRunner Payload) (taskId : TaskId) : TaskRunner Payload :=
  match runner.runningTask taskId with
  | none => runner
  | some state => match state.status with
    -- These states should never happen, as they are handled already in
    -- the other lifecycle methods and the task should be removed from the
    -- running tasks
    | .abortingCancelled | .abortingTimeout | .running =>
      runner.record (.unexpectedTaskStatus taskId state.status .settings)
    | .waitingForSettings =>
      { runner.setState taskId { state with status := .running } with executions := runner.executions ++ [taskId] }

/-- `taskExecutionSucceeded` and `taskExecutionFailed` do the same with their messages; the result says whether the
status was an expected one. -/
def settled (runner : TaskRunner Payload) (taskId : TaskId) (answer : RunnerMessage.ToBroker Payload) :
    TaskRunner Payload × Bool :=
  match runner.taskStates.get? taskId with
  | none => (runner, true)
  | some state => match state.status with
    | .waitingForSettings =>
      ((runner.record (.unexpectedTaskStatus taskId state.status .completion)).finishTask opts now taskId state, false)
    | .abortingCancelled => (runner.finishTask opts now taskId state, true)
    -- If the task timed out but we ended up reaching this point, we
    -- might as well send the data
    | .abortingTimeout | .running => ((runner.send answer).finishTask opts now taskId state, true)

def taskExecutionFailed (runner : TaskRunner Payload) (taskId : TaskId) (error : TaskFailure Payload) :
    TaskRunner Payload × Bool :=
  runner.settled opts now taskId (.taskError taskId error)

/-- What `taskExecutionSucceeded` throws is caught as an error of the execution. -/
def taskExecutionSucceeded (runner : TaskRunner Payload) (taskId : TaskId) (data : Payload) :
    TaskRunner Payload × Bool :=
  let (runner, expected) := runner.settled opts now taskId (.taskDone taskId data)
  if expected then (runner, expected)
  else runner.taskExecutionFailed opts now taskId (.unexpectedTaskStatus taskId)

/-! ## The runner as a state machine -/

/-- What can happen to a runner.  Every event comes with the time at which it does. -/
inductive Event (Payload : Type) where
  | message (message : BrokerMessage.ToRunner Payload)
  /-- The interval for offers is over. -/
  | offerInterval
  | close
  | timeoutFired (taskId : TaskId)
  | executionSucceeded (taskId : TaskId) (data : Payload)
  | executionFailed (taskId : TaskId) (error : Payload)

def onMessage (runner : TaskRunner Payload) : BrokerMessage.ToRunner Payload → TaskRunner Payload
  | .infoRequest => runner.send (.info opts.name [opts.taskType])
  | .runnerRegistered => runner.startTaskOffers
  | .taskOfferAccept offerId taskId => runner.offerAccepted opts offerId taskId
  | .taskCancel taskId _ => runner.taskCancelled opts now taskId
  | .taskSettings taskId _ => runner.receivedSettings taskId
  | .taskDataResponse _ _ _ | .rpcResponse _ _ _ _ | .nodeTypes _ _ _ => runner

/-- The timer of the task is not set any more once it has fired. -/
def timeoutFired (runner : TaskRunner Payload) (taskId : TaskId) : TaskRunner Payload :=
  match runner.taskStates.get? taskId with
  | none => runner
  | some state => (runner.setState taskId { state with timeoutTimer := false }).taskTimedOut opts now taskId

def executionSettled (runner : TaskRunner Payload) (taskId : TaskId) : TaskRunner Payload :=
  { runner with executions := runner.executions.erase taskId }

def step (runner : TaskRunner Payload) : Nat × Event Payload → TaskRunner Payload
  | (now, .message message) => runner.onMessage opts now message
  | (now, .offerInterval) => runner.sendOffers opts now
  | (_, .close) => runner.stopTaskOffers
  | (now, .timeoutFired taskId) => runner.timeoutFired opts now taskId
  | (now, .executionSucceeded taskId data) =>
    ((runner.executionSettled taskId).taskExecutionSucceeded opts now taskId data).1
  | (now, .executionFailed taskId error) =>
    ((runner.executionSettled taskId).taskExecutionFailed opts now taskId (.error error)).1

/-- Task ids are distinct, timers fire once at most and only while they are set, and executions settle once. -/
def Allowed (runner : TaskRunner Payload) : Nat × Event Payload → Prop
  | (_, .message (.taskOfferAccept _ taskId)) => runner.taskStates.get? taskId = none
  | (_, .timeoutFired taskId) => ∃ state, runner.taskStates.get? taskId = some state ∧ state.timeoutTimer = true
  | (_, .executionSucceeded taskId _) | (_, .executionFailed taskId _) => taskId ∈ runner.executions
  | _ => True

/-! ## What is seen of one task -/

def isAnswer (taskId : TaskId) : RunnerMessage.ToBroker Payload → Bool
  | .taskDone answered _ | .taskError answered _ => answered = taskId
  | _ => false

/-- The happenings of the life of a task; settings may come twice. -/
def concerns (taskId : TaskId) : Happening Payload → Bool
  | .sent (.taskAccepted accepted) => accepted = taskId
  | .sent message => isAnswer taskId message
  | .cancelled cancelled => cancelled = taskId
  | .left left => left = taskId
  | .unexpectedTaskStatus unexpected _ source => unexpected = taskId ∧ source ≠ .settings

structure View (Payload : Type) where
  running : Nat
  state : Option TaskState
  executing : Nat
  history : List (Happening Payload)

def view (runner : TaskRunner Payload) (taskId : TaskId) : View Payload :=
  { running := runner.runningTasks.count taskId
    state := runner.taskStates.get? taskId
    executing := runner.executions.count taskId
    history := runner.log.filter (concerns taskId) }

/-- The phases of a task, each with all that has happened to it. -/
inductive Phase (taskId : TaskId) : View Payload → Prop where
  | unknown : Phase taskId ⟨0, none, 0, []⟩
  | waitingForSettings :
    Phase taskId ⟨1, some ⟨.waitingForSettings, true⟩, 0, [.sent (.taskAccepted taskId)]⟩
  | running : Phase taskId ⟨1, some ⟨.running, true⟩, 1, [.sent (.taskAccepted taskId)]⟩
  | abortingCancelled (timeoutTimer : Bool) :
    Phase taskId ⟨1, some ⟨.abortingCancelled, timeoutTimer⟩, 1,
      [.sent (.taskAccepted taskId), .cancelled taskId]⟩
  | abortingTimeout : Phase taskId ⟨1, some ⟨.abortingTimeout, false⟩, 1, [.sent (.taskAccepted taskId)]⟩
  | answered (status : TaskStatus) (answer : RunnerMessage.ToBroker Payload) (answers : isAnswer taskId answer = true) :
    Phase taskId ⟨0, some ⟨status, false⟩, 0, [.sent (.taskAccepted taskId), .sent answer, .left taskId]⟩
  | cancelled (status : TaskStatus) :
    Phase taskId ⟨0, some ⟨status, false⟩, 0,
      [.sent (.taskAccepted taskId), .cancelled taskId, .left taskId]⟩

/-! ### What the parts of an operation change -/

section

variable (runner : TaskRunner Payload) (taskId : TaskId)

@[simp] theorem view_record (happening : Happening Payload) :
    (runner.record happening).view taskId =
      { runner.view taskId with
        history := (runner.view taskId).history ++ if concerns taskId happening then [happening] else [] } := by
  cases concerned : concerns taskId happening <;> simp [view, record, List.filter_append, concerned]

@[simp] theorem view_send (message : RunnerMessage.ToBroker Payload) :
    (runner.send message).view taskId =
      { runner.view taskId with
        history := (runner.view taskId).history ++
          if concerns taskId (.sent message) then [.sent message] else [] } :=
  view_record runner taskId (.sent message)

theorem view_setState (changed : TaskId) (state : TaskState) :
    (runner.setState changed state).view taskId =
      if taskId = changed then { runner.view taskId with state := some state } else runner.view taskId := by
  simp only [view, setState, OrderedMap.get?_set]
  split <;> rfl

variable {changed : TaskId}

theorem view_setState_of_ne (other : taskId ≠ changed) (state : TaskState) :
    (runner.setState changed state).view taskId = runner.view taskId := by
  rw [view_setState, if_neg other]

variable (opts : TaskRunnerOpts) (now : Nat)

theorem view_sendOffer : (runner.sendOffer opts now).view taskId = runner.view taskId := by
  unfold sendOffer
  rw [view_send]
  -- An offer is not about any task yet.
  simp [concerns, isAnswer, view]

theorem view_sendOffers : (runner.sendOffers opts now).view taskId = runner.view taskId := by
  have offers : ∀ count (runner : TaskRunner Payload),
      ((sendOffer opts now)^[count] runner).view taskId = runner.view taskId := by
    intro count
    induction count with
    | zero => intro runner; rfl
    | succ count ih =>
      intro runner
      rw [Function.iterate_succ_apply, ih, view_sendOffer]
  unfold sendOffers
  dsimp only
  split
  · rfl
  · rw [offers]
    rfl

theorem runningTask_eq_view : runner.runningTask taskId =
    if (runner.view taskId).running = 0 then none else (runner.view taskId).state := by
  unfold runningTask
  simp only [view, List.count_eq_zero]
  by_cases running : taskId ∈ runner.runningTasks <;> simp [running]

theorem view_finishTask (state : TaskState) : (runner.finishTask opts now taskId state).view taskId =
    { runner.view taskId with
      running := (runner.view taskId).running - 1
      state := some { state with timeoutTimer := false }
      history := (runner.view taskId).history ++
        if (runner.view taskId).running = 0 then [] else [.left taskId] } := by
  unfold finishTask
  simp only [view_sendOffers]
  by_cases running : taskId ∈ runner.runningTasks
  · have some_ : runner.runningTasks.count taskId ≠ 0 := by simpa [List.count_eq_zero] using running
    simp [view, setState, record, concerns, running, some_, List.filter_append]
  · have none_ : runner.runningTasks.count taskId = 0 := by simpa [List.count_eq_zero] using running
    simp [view, setState, running, none_]

theorem view_finishTask_of_ne (other : taskId ≠ changed) (state : TaskState) :
    (runner.finishTask opts now changed state).view taskId = runner.view taskId := by
  unfold finishTask
  simp only [view_sendOffers]
  have elsewhere : (runner.runningTasks.erase changed).count taskId = runner.runningTasks.count taskId :=
    List.count_erase_of_ne other
  split
  · simp [view, setState, record, concerns, other.symm, List.filter_append, elsewhere,
      OrderedMap.get?_set_of_ne _ _ other]
  · exact view_setState_of_ne runner taskId other _

theorem view_receivedSettings_of_ne (other : taskId ≠ changed) :
    (runner.receivedSettings changed).view taskId = runner.view taskId := by
  have one : (runner.executions ++ [changed]).count taskId = runner.executions.count taskId := by
    simp [List.count_append, other.symm]
  unfold receivedSettings
  split
  · rfl
  next state _ =>
    split
    case h_4 => simp [view, setState, one, OrderedMap.get?_set_of_ne _ _ other]
    -- Settings that come twice do not count as part of the life of a task.
    all_goals simp [concerns]

theorem view_taskTimedOut_of_ne (other : taskId ≠ changed) :
    (runner.taskTimedOut opts now changed).view taskId = runner.view taskId := by
  unfold taskTimedOut
  split
  · rfl
  next state _ =>
    split
    all_goals
      simp [concerns, isAnswer, other.symm, view_finishTask_of_ne _ _ opts now other,
        view_setState_of_ne _ _ other]

theorem view_taskCancelled_of_ne (other : taskId ≠ changed) :
    (runner.taskCancelled opts now changed).view taskId = runner.view taskId := by
  unfold taskCancelled
  split
  · rfl
  next state _ =>
    split
    all_goals
      simp [concerns, other.symm, view_finishTask_of_ne _ _ opts now other, view_setState_of_ne _ _ other]

theorem view_settled_of_ne (other : taskId ≠ changed) {answer : RunnerMessage.ToBroker Payload}
    (answers : isAnswer changed answer = true) :
    (runner.settled opts now changed answer).1.view taskId = runner.view taskId := by
  have elsewhere : concerns taskId (.sent answer) = false := by
    cases answer <;> simp_all [concerns, isAnswer, eq_comm]
  unfold settled
  split
  · rfl
  next state _ =>
    split
    case h_1 => simp [concerns, other.symm, view_finishTask_of_ne _ _ opts now other]
    all_goals simp [elsewhere, view_finishTask_of_ne _ _ opts now other]

end

/-! ### A step leads from one phase to the next -/

def Phases (runner : TaskRunner Payload) : Prop := ∀ taskId, Phase taskId (runner.view taskId)

theorem Phases.of_changed {runner changed : TaskRunner Payload} (taskId : TaskId) (phases : runner.Phases)
    (elsewhere : ∀ other, other ≠ taskId → changed.view other = runner.view other)
    (here : Phase taskId (changed.view taskId)) : changed.Phases := by
  intro other
  by_cases same : other = taskId
  · subst same
    exact here
  · rw [elsewhere other same]
    exact phases other

theorem Phases.of_view {runner changed : TaskRunner Payload} (phases : runner.Phases)
    (same : ∀ taskId, changed.view taskId = runner.view taskId) : changed.Phases :=
  fun taskId => same taskId ▸ phases taskId

theorem phases_new : (new : TaskRunner Payload).Phases := fun _ => .unknown

section

variable {runner : TaskRunner Payload} (phases : runner.Phases) (opts : TaskRunnerOpts) (now : Nat) (taskId : TaskId)
include phases

theorem Phases.taskCancelled : (runner.taskCancelled opts now taskId).Phases := by
  apply phases.of_changed taskId (fun other different => view_taskCancelled_of_ne runner other opts now different)
  have phase := phases taskId
  unfold TaskRunner.taskCancelled
  rw [runningTask_eq_view]
  generalize seen : runner.view taskId = before at phase
  cases phase with
  | waitingForSettings =>
    simpa [view_finishTask, seen, concerns] using Phase.cancelled .waitingForSettings
  | running => simpa [view_setState, seen, concerns] using Phase.abortingCancelled true
  -- A cancel that comes later changes nothing.
  | unknown => simpa [seen] using Phase.unknown
  | abortingCancelled timeoutTimer => simpa [seen] using Phase.abortingCancelled timeoutTimer
  | abortingTimeout => simpa [seen] using Phase.abortingTimeout
  | answered status answer answers => simpa [seen] using Phase.answered status answer answers
  | cancelled status => simpa [seen] using Phase.cancelled status

theorem Phases.taskTimedOut {state : TaskState} (waits : runner.taskStates.get? taskId = some state)
    (timer : state.timeoutTimer = true) : (runner.timeoutFired opts now taskId).Phases := by
  unfold timeoutFired
  rw [waits]
  dsimp only
  apply phases.of_changed taskId
  · intro other different
    rw [view_taskTimedOut_of_ne _ other opts now different, view_setState_of_ne _ _ different]
  have phase := phases taskId
  have known : (runner.view taskId).state = some state := waits
  unfold TaskRunner.taskTimedOut
  rw [runningTask_eq_view, view_setState, if_pos rfl]
  generalize seen : runner.view taskId = before at phase known
  cases phase with
  | unknown => cases known
  | waitingForSettings =>
    obtain rfl := Option.some.inj known
    simpa [view_finishTask, view_setState, seen, concerns, isAnswer] using
      Phase.answered .waitingForSettings (.taskError taskId (.timeout opts.taskTimeout)) (by simp [isAnswer])
  | running =>
    obtain rfl := Option.some.inj known
    simpa [view_setState, seen] using Phase.abortingTimeout
  | abortingCancelled timeoutTimer =>
    obtain rfl := Option.some.inj known
    simpa [view_setState, seen] using Phase.abortingCancelled false
  -- The timer is not set any more.
  | abortingTimeout | answered | cancelled =>
    obtain rfl := Option.some.inj known
    cases timer

theorem Phases.receivedSettings : (runner.receivedSettings taskId).Phases := by
  apply phases.of_changed taskId (fun other different => view_receivedSettings_of_ne runner other different)
  have phase := phases taskId
  unfold TaskRunner.receivedSettings
  rw [runningTask_eq_view]
  generalize seen : runner.view taskId = before at phase
  cases phase with
  | waitingForSettings =>
    have started : ({ runner.setState taskId ⟨.running, true⟩ with
        executions := runner.executions ++ [taskId] } : TaskRunner Payload).view taskId =
          ⟨1, some ⟨.running, true⟩, 1, [.sent (.taskAccepted taskId)]⟩ := by
      have parts := seen
      simp only [view, View.mk.injEq] at parts
      simp [view, setState, parts]
    simpa [started] using Phase.running
  | running => simpa [seen, concerns] using Phase.running
  | abortingCancelled timeoutTimer => simpa [seen, concerns] using Phase.abortingCancelled timeoutTimer
  | abortingTimeout => simpa [seen, concerns] using Phase.abortingTimeout
  -- The task does not run any more.
  | unknown => simpa [seen] using Phase.unknown
  | answered status answer answers => simpa [seen] using Phase.answered status answer answers
  | cancelled status => simpa [seen] using Phase.cancelled status

theorem Phases.offerAccepted (offerId : OfferId) (fresh : runner.taskStates.get? taskId = none) :
    (runner.offerAccepted opts offerId taskId).Phases := by
  unfold TaskRunner.offerAccepted
  split
  · exact phases.of_view fun other => by simp [view, send, record, concerns, isAnswer, List.filter_append]
  split
  · exact phases.of_view fun other => by simp [concerns, isAnswer]
  have phase := phases taskId
  have unknown : (runner.view taskId).state = none := fresh
  generalize seen : runner.view taskId = before at phase unknown
  cases phase with
  | unknown =>
    simp only [view, View.mk.injEq, List.count_eq_zero] at seen
    obtain ⟨notRunning, _, notExecuting, noHistory⟩ := seen
    apply phases.of_changed taskId
    · intro other different
      simp [view, send, record, concerns, List.filter_append, different.symm,
        OrderedMap.get?_set_of_ne _ _ different, List.insert_of_not_mem notRunning]
    · have accepted : @Phase Payload taskId _ := .waitingForSettings
      simpa [view, send, record, concerns, List.filter_append, List.insert_of_not_mem notRunning,
        List.count_eq_zero.mpr notRunning, List.count_eq_zero.mpr notExecuting, noHistory] using accepted
  -- A task that has a state is known already.
  | _ => cases unknown

theorem Phases.settled (executing : taskId ∈ runner.executions) {answer : RunnerMessage.ToBroker Payload}
    (answers : isAnswer taskId answer = true) :
    ((runner.executionSettled taskId).settled opts now taskId answer).2 = true ∧
      ((runner.executionSettled taskId).settled opts now taskId answer).1.Phases := by
  have elsewhere : ∀ other, other ≠ taskId →
      ((runner.executionSettled taskId).settled opts now taskId answer).1.view other = runner.view other := by
    intro other different
    rw [view_settled_of_ne _ other opts now different answers]
    simp [view, executionSettled, List.count_erase_of_ne different]
  have concerned : concerns taskId (.sent answer) = true := by
    cases answer <;> simp_all [concerns, isAnswer]
  have phase := phases taskId
  have executes : (runner.view taskId).executing ≠ 0 := by simpa [view, List.count_eq_zero] using executing
  have here : (runner.executionSettled taskId).view taskId =
      { runner.view taskId with executing := (runner.view taskId).executing - 1 } := by
    simp [view, executionSettled]
  have known : (runner.executionSettled taskId).taskStates.get? taskId = (runner.view taskId).state := rfl
  generalize seen : runner.view taskId = before at phase executes here known
  cases phase with
  | running =>
    have unfolded : (runner.executionSettled taskId).settled opts now taskId answer =
        (((runner.executionSettled taskId).send answer).finishTask opts now taskId ⟨.running, true⟩, true) := by
      simp [TaskRunner.settled, known]
    refine ⟨by rw [unfolded], phases.of_changed taskId elsewhere ?_⟩
    rw [unfolded]
    simpa [view_finishTask, here, concerned] using Phase.answered .running answer answers
  | abortingTimeout =>
    have unfolded : (runner.executionSettled taskId).settled opts now taskId answer =
        (((runner.executionSettled taskId).send answer).finishTask opts now taskId ⟨.abortingTimeout, false⟩,
          true) := by
      simp [TaskRunner.settled, known]
    refine ⟨by rw [unfolded], phases.of_changed taskId elsewhere ?_⟩
    rw [unfolded]
    simpa [view_finishTask, here, concerned] using Phase.answered .abortingTimeout answer answers
  | abortingCancelled timeoutTimer =>
    have unfolded : (runner.executionSettled taskId).settled opts now taskId answer =
        ((runner.executionSettled taskId).finishTask opts now taskId ⟨.abortingCancelled, timeoutTimer⟩, true) := by
      simp [TaskRunner.settled, known]
    refine ⟨by rw [unfolded], phases.of_changed taskId elsewhere ?_⟩
    rw [unfolded]
    simpa [view_finishTask, here] using Phase.cancelled .abortingCancelled
  -- Nothing is executed in the other phases.
  | unknown | waitingForSettings | answered | cancelled => exact absurd rfl executes

end

theorem Phases.step {runner : TaskRunner Payload} (opts : TaskRunnerOpts) {event : Nat × Event Payload}
    (phases : runner.Phases) (allowed : runner.Allowed event) : (runner.step opts event).Phases := by
  obtain ⟨now, event⟩ := event
  cases event with
  | message message =>
    cases message with
    | infoRequest => exact phases.of_view fun taskId => by simp [TaskRunner.step, onMessage, concerns, isAnswer]
    | taskOfferAccept offerId taskId => exact phases.offerAccepted opts taskId offerId allowed
    | taskCancel taskId reason => exact phases.taskCancelled opts now taskId
    | taskSettings taskId settings => exact phases.receivedSettings taskId
    | runnerRegistered | rpcResponse | taskDataResponse | nodeTypes => exact phases
  | offerInterval => exact phases.of_view fun taskId => view_sendOffers runner taskId opts now
  | close => exact phases
  | timeoutFired taskId =>
    obtain ⟨state, known, timer⟩ := allowed
    exact phases.taskTimedOut opts now taskId known timer
  | executionSucceeded taskId data =>
    have answers : isAnswer taskId (.taskDone taskId data) = true := by simp [isAnswer]
    obtain ⟨expected, next⟩ := phases.settled opts now taskId allowed answers
    unfold TaskRunner.step taskExecutionSucceeded
    dsimp only
    rw [if_pos expected]
    exact next
  | executionFailed taskId error =>
    exact (phases.settled opts now taskId allowed (by simp [isAnswer])).2

/-! ### The number of tasks and offers -/

/-- There are no more running tasks and open offers than a runner may have. -/
def Bounded (opts : TaskRunnerOpts) (runner : TaskRunner Payload) : Prop :=
  runner.runningTasks.length + runner.openOffers.size ≤ opts.maxConcurrency

section

variable {opts : TaskRunnerOpts} {runner : TaskRunner Payload} (bounded : runner.Bounded opts) (now : Nat)
  (taskId : TaskId)
include bounded

theorem Bounded.of_le {changed : TaskRunner Payload} (tasks : changed.runningTasks.length ≤ runner.runningTasks.length)
    (offers : changed.openOffers.size ≤ runner.openOffers.size) : changed.Bounded opts := by
  unfold Bounded at *
  omega

theorem Bounded.sendOffers : (runner.sendOffers opts now).Bounded opts := by
  -- Every round adds one offer at most, and there are as many rounds as there is room.
  have rounds : ∀ count (runner : TaskRunner Payload),
      ((sendOffer opts now)^[count] runner).runningTasks.length = runner.runningTasks.length ∧
        ((sendOffer opts now)^[count] runner).openOffers.size ≤ runner.openOffers.size + count := by
    intro count
    induction count with
    | zero => intro runner; exact ⟨rfl, Nat.le_refl _⟩
    | succ count ih =>
      intro runner
      obtain ⟨tasks, offers⟩ := ih (runner.sendOffer opts now)
      have one : (runner.sendOffer opts now).openOffers.size ≤ runner.openOffers.size + 1 :=
        OrderedMap.size_set_le _ _ _
      rw [Function.iterate_succ_apply]
      exact ⟨tasks, by omega⟩
  have fewer : (runner.deleteStaleOffers now).openOffers.size ≤ runner.openOffers.size :=
    OrderedMap.size_filterValues_le _ _
  have left : (runner.deleteStaleOffers now).Bounded opts := bounded.of_le (Nat.le_refl _) fewer
  unfold TaskRunner.sendOffers
  dsimp only
  split
  · exact left
  · obtain ⟨tasks, offers⟩ := rounds (opts.maxConcurrency - ((runner.deleteStaleOffers now).openOffers.size +
      (runner.deleteStaleOffers now).runningTasks.length)) (runner.deleteStaleOffers now)
    unfold Bounded at *
    omega

theorem Bounded.finishTask (state : TaskState) : (runner.finishTask opts now taskId state).Bounded opts := by
  unfold TaskRunner.finishTask
  apply Bounded.sendOffers
  split
  · exact bounded.of_le (List.length_erase_le) (Nat.le_refl _)
  · exact bounded

theorem Bounded.offerAccepted (offerId : OfferId) : (runner.offerAccepted opts offerId taskId).Bounded opts := by
  unfold TaskRunner.offerAccepted
  split
  · exact bounded.of_le (Nat.le_refl _) (OrderedMap.size_erase_le _ _)
  split
  · exact bounded
  next found =>
    -- The task takes the place of the offer.
    have offers := OrderedMap.size_erase_of_get? found
    have tasks : (runner.runningTasks.insert taskId).length ≤ runner.runningTasks.length + 1 := by
      by_cases running : taskId ∈ runner.runningTasks <;> simp [running]
    simp only [Bounded, send, record] at *
    omega

theorem Bounded.taskCancelled : (runner.taskCancelled opts now taskId).Bounded opts := by
  unfold TaskRunner.taskCancelled
  split
  · exact bounded
  split
  · exact Bounded.finishTask (by exact bounded) now taskId _
  · exact bounded
  · exact bounded
  · exact bounded

theorem Bounded.taskTimedOut : (runner.taskTimedOut opts now taskId).Bounded opts := by
  unfold TaskRunner.taskTimedOut
  split
  · exact bounded
  split
  · exact Bounded.finishTask (by exact bounded) now taskId _
  all_goals exact bounded

theorem Bounded.receivedSettings : (runner.receivedSettings taskId).Bounded opts := by
  unfold TaskRunner.receivedSettings
  split
  · exact bounded
  split
  all_goals exact bounded

theorem Bounded.settled (answer : RunnerMessage.ToBroker Payload) :
    (runner.settled opts now taskId answer).1.Bounded opts := by
  unfold TaskRunner.settled
  split
  · exact bounded
  split
  all_goals exact Bounded.finishTask (by exact bounded) now taskId _

theorem Bounded.step (event : Nat × Event Payload) : (runner.step opts event).Bounded opts := by
  obtain ⟨now, event⟩ := event
  cases event with
  | message message =>
    cases message with
    | taskOfferAccept offerId taskId => exact bounded.offerAccepted taskId offerId
    | taskCancel taskId reason => exact bounded.taskCancelled now taskId
    | taskSettings taskId settings => exact bounded.receivedSettings taskId
    | infoRequest | runnerRegistered | rpcResponse | taskDataResponse | nodeTypes => exact bounded
  | offerInterval => exact bounded.sendOffers now
  | close => exact bounded
  | timeoutFired taskId =>
    unfold TaskRunner.step timeoutFired
    dsimp only
    split
    · exact bounded
    · exact Bounded.taskTimedOut (by exact bounded) now taskId
  | executionSucceeded taskId data =>
    have one : ((runner.executionSettled taskId).settled opts now taskId (.taskDone taskId data)).1.Bounded opts :=
      Bounded.settled (by exact bounded) now taskId _
    unfold TaskRunner.step taskExecutionSucceeded
    dsimp only
    split
    · exact one
    · exact one.settled now taskId _
  | executionFailed taskId error => exact Bounded.settled (by exact bounded) now taskId _

end

/-! ## The life of a task in every run -/

def answers (taskId : TaskId) : Happening Payload → Bool
  | .sent message => isAnswer taskId message
  | _ => false

def leaves (taskId : TaskId) : Happening Payload → Bool
  | .left left => left = taskId
  | _ => false

/-- What is promised of one task, whatever happens. -/
structure Lifecycle (taskId : TaskId) (runner : TaskRunner Payload) : Prop where
  answered_once : runner.log.countP (answers taskId) ≤ 1
  not_answered_if_cancelled : .cancelled taskId ∈ runner.log → runner.log.countP (answers taskId) = 0
  leaves_once : .sent (.taskAccepted taskId) ∈ runner.log →
    (taskId ∈ runner.runningTasks ∧ runner.log.countP (leaves taskId) = 0) ∨
      (taskId ∉ runner.runningTasks ∧ runner.log.countP (leaves taskId) = 1)
  /-- Nothing happens to a task that has left. -/
  leaves_last : ∀ before after, runner.log.filter (concerns taskId) = before ++ .left taskId :: after → after = []
  /-- A task stays only as long as it waits for settings or is executed. -/
  stays : taskId ∈ runner.runningTasks →
    (∃ state, runner.taskStates.get? taskId = some state ∧ state.status = .waitingForSettings) ∨
      taskId ∈ runner.executions
  expected : ∀ status source, .unexpectedTaskStatus taskId status source ∈ runner.log → source = .settings

variable {taskId : TaskId}

theorem countP_history (runner : TaskRunner Payload) {test : Happening Payload → Bool}
    (concerned : ∀ happening, test happening = true → concerns taskId happening = true) :
    runner.log.countP test = (runner.view taskId).history.countP test := by
  simp only [view, List.countP_filter]
  apply List.countP_congr
  intro happening _
  cases tested : test happening with
  | true => simp [concerned happening tested]
  | false => simp

variable {happening : Happening Payload}

theorem mem_history {runner : TaskRunner Payload} (concerned : concerns taskId happening = true) :
    happening ∈ runner.log ↔ happening ∈ (runner.view taskId).history := by
  simp [view, concerned]

theorem concerns_of_answers (answer : answers taskId happening = true) :
    concerns taskId happening = true := by
  cases happening with
  | sent message => cases message <;> simp_all [answers, concerns, isAnswer]
  | _ => simp [answers] at answer

theorem concerns_of_leaves (left : leaves taskId happening = true) :
    concerns taskId happening = true := by
  cases happening <;> simp_all [leaves, concerns]

section

variable {taskId : TaskId} {seen : View Payload} (phase : Phase taskId seen)
include phase

theorem Phase.answered_once : seen.history.countP (TaskRunner.answers taskId) ≤ 1 := by
  cases phase with
  | answered status answer isAnswer =>
    have one : TaskRunner.answers taskId (.sent answer) = true := isAnswer
    rw [List.countP_cons_of_neg (by simp [TaskRunner.answers, TaskRunner.isAnswer]), List.countP_cons_of_pos one]
    simp [TaskRunner.answers]
  | _ => simp [TaskRunner.answers, isAnswer]

theorem Phase.not_answered_if_cancelled (cancelled : .cancelled taskId ∈ seen.history) :
    seen.history.countP (TaskRunner.answers taskId) = 0 := by
  cases phase with
  | abortingCancelled | cancelled => simp [TaskRunner.answers, isAnswer]
  -- No cancel came in the other phases.
  | _ => simp at cancelled

theorem Phase.leaves_once (accepted : .sent (.taskAccepted taskId) ∈ seen.history) :
    (seen.running ≠ 0 ∧ seen.history.countP (leaves taskId) = 0) ∨
      (seen.running = 0 ∧ seen.history.countP (leaves taskId) = 1) := by
  cases phase with
  | unknown => simp at accepted
  | answered | cancelled => right; simp [leaves]
  | _ => left; simp [leaves]

theorem Phase.leaves_last {before after : List (Happening Payload)}
    (left : seen.history = before ++ .left taskId :: after) : after = [] := by
  -- What is left is the last of at most three happenings.
  cases phase <;> simp [List.cons_eq_append_iff] at left <;> simp [left]

theorem Phase.stays (running : seen.running ≠ 0) :
    (∃ state, seen.state = some state ∧ state.status = .waitingForSettings) ∨ seen.executing ≠ 0 := by
  cases phase with
  | waitingForSettings => exact .inl ⟨_, rfl, rfl⟩
  | running | abortingCancelled | abortingTimeout => exact .inr (by simp)
  | unknown | answered | cancelled => exact absurd rfl running

theorem Phase.expected {status : TaskStatus} {source : Source} :
    .unexpectedTaskStatus taskId status source ∉ seen.history := by
  cases phase <;> simp

end

/-- Whatever phase a task is in, it has the life it is promised. -/
theorem Phases.lifecycle {runner : TaskRunner Payload} (phases : runner.Phases) (taskId : TaskId) :
    Lifecycle taskId runner := by
  have phase := phases taskId
  have running : taskId ∈ runner.runningTasks ↔ (runner.view taskId).running ≠ 0 :=
    (not_congr List.count_eq_zero).trans not_not |>.symm
  have executing : taskId ∈ runner.executions ↔ (runner.view taskId).executing ≠ 0 :=
    (not_congr List.count_eq_zero).trans not_not |>.symm
  constructor
  case answered_once =>
    rw [countP_history runner fun _ => concerns_of_answers]
    exact phase.answered_once
  case not_answered_if_cancelled =>
    rw [countP_history runner fun _ => concerns_of_answers]
    intro cancelled
    exact phase.not_answered_if_cancelled ((mem_history (by simp [concerns])).mp cancelled)
  case leaves_once =>
    rw [countP_history runner fun _ => concerns_of_leaves, running, not_not]
    intro accepted
    exact phase.leaves_once ((mem_history (by simp [concerns])).mp accepted)
  case leaves_last => exact fun before after left => phase.leaves_last left
  case stays =>
    rw [running, executing]
    exact phase.stays
  case expected =>
    intro status source inside
    by_contra other
    exact phase.expected ((mem_history (by simp [concerns, other])).mp inside)

namespace TimedOutTask

def events : List (Nat × Event Unit) :=
  [(0, .message .runnerRegistered), (1, .offerInterval), (2, .message (.taskOfferAccept 1 7)),
    (3, .message (.taskSettings 7 ())), (63, .timeoutFired 7), (64, .message (.taskCancel 7 "Unknown reason")),
    (65, .executionFailed 7 ())]

end TimedOutTask

end TaskRunner

end N8n.TaskRunners
