import N8n.TaskRunners.FinalAnswers
import N8n.TaskRunners.Isolation
import N8n.TaskRunners.Monotonicity
import N8n.TaskRunners.TaskRunner

/-! # The broker and a connected runner

The broker and one of its runners, with the messages that are in flight between
them.  Everything else that happens to the broker (requesters, other runners,
timers) may happen at any time, and so may the timers and the executions of the
runner.
-/

namespace N8n.TaskRunners

variable {Payload : Type}

/-! ## What a step of the runner does -/

namespace TaskRunner

section

variable {runner : TaskRunner Payload} {log : List (Happening Payload)} (opts : TaskRunnerOpts) (now : Nat)
  (earlier : log <+: runner.log)
include earlier

theorem prefix_record (happening : Happening Payload) : log <+: (runner.record happening).log :=
  earlier.trans (List.prefix_append _ _)

theorem prefix_sendOffers : log <+: (runner.sendOffers opts now).log := by
  have rounds : ∀ count (runner : TaskRunner Payload), log <+: runner.log →
      log <+: ((sendOffer opts now)^[count] runner).log := by
    intro count
    induction count with
    | zero => exact fun _ earlier => earlier
    | succ count ih =>
      intro runner earlier
      rw [Function.iterate_succ_apply]
      exact ih _ (earlier.trans (List.prefix_append _ _))
  unfold sendOffers
  dsimp only
  split
  · exact earlier
  · exact rounds _ _ (by exact earlier)

theorem prefix_finishTask (taskId : TaskId) (state : TaskState) :
    log <+: (runner.finishTask opts now taskId state).log := by
  unfold finishTask
  apply prefix_sendOffers
  split
  · exact prefix_record (by exact earlier) _
  · exact earlier

theorem prefix_offerAccepted (offerId : OfferId) (taskId : TaskId) :
    log <+: (runner.offerAccepted opts offerId taskId).log := by
  unfold offerAccepted
  split
  · exact prefix_record (by exact earlier) _
  split
  · exact prefix_record earlier _
  · exact prefix_record (by exact earlier) _

theorem prefix_taskCancelled (taskId : TaskId) : log <+: (runner.taskCancelled opts now taskId).log := by
  unfold taskCancelled
  split
  · exact earlier
  split
  · exact prefix_finishTask opts now (prefix_record earlier _) _ _
  · exact earlier
  · exact earlier
  · exact prefix_record earlier _

theorem prefix_taskTimedOut (taskId : TaskId) : log <+: (runner.taskTimedOut opts now taskId).log := by
  unfold taskTimedOut
  split
  · exact earlier
  split
  · exact prefix_finishTask opts now (prefix_record earlier _) _ _
  · exact prefix_record earlier _
  · exact earlier
  · exact earlier

theorem prefix_receivedSettings (taskId : TaskId) : log <+: (runner.receivedSettings taskId).log := by
  unfold receivedSettings
  split
  · exact earlier
  split
  case h_4 => exact earlier
  all_goals exact prefix_record earlier _

theorem prefix_settled (taskId : TaskId) (answer : RunnerMessage.ToBroker Payload) :
    log <+: (runner.settled opts now taskId answer).1.log := by
  unfold settled
  split
  · exact earlier
  split
  case h_2 => exact prefix_finishTask opts now earlier _ _
  all_goals exact prefix_finishTask opts now (prefix_record earlier _) _ _

end

section

variable (opts : TaskRunnerOpts) (runner : TaskRunner Payload)

theorem prefix_step (event : Nat × Event Payload) : runner.log <+: (runner.step opts event).log := by
  have earlier : runner.log <+: runner.log := List.prefix_refl _
  obtain ⟨now, event⟩ := event
  cases event with
  | message message =>
    cases message with
    | infoRequest => exact prefix_record earlier _
    | taskOfferAccept offerId taskId => exact prefix_offerAccepted opts earlier offerId taskId
    | taskCancel taskId reason => exact prefix_taskCancelled opts now earlier taskId
    | taskSettings taskId settings => exact prefix_receivedSettings earlier taskId
    | runnerRegistered | rpcResponse | taskDataResponse | nodeTypes => exact earlier
  | offerInterval => exact prefix_sendOffers opts now earlier
  | close => exact earlier
  | timeoutFired taskId =>
    simp only [step, timeoutFired]
    split
    · exact earlier
    · exact prefix_taskTimedOut opts now (by exact earlier) taskId
  | executionSucceeded taskId data =>
    have one := prefix_settled opts now earlier taskId (.taskDone taskId data)
    simp only [step, taskExecutionSucceeded]
    split
    · exact prefix_settled opts now (by exact earlier) taskId _
    · exact prefix_settled opts now (prefix_settled opts now (by exact earlier) taskId _) taskId _
  | executionFailed taskId error => exact prefix_settled opts now (by exact earlier) taskId _

variable {runner}

theorem unknown_step {taskId : TaskId} (unknown : runner.taskStates.get? taskId = none) {event : Nat × Event Payload}
    (notAccepted : ∀ now offerId, event ≠ (now, .message (.taskOfferAccept offerId taskId))) :
    (runner.step opts event).taskStates.get? taskId = none := by
  have unseen : (runner.view taskId).state = none := unknown
  have notRunning : runner.runningTask taskId = none := by
    unfold runningTask
    split
    · exact unknown
    · rfl
  -- A task that settles is deleted, so what is unknown stays unknown.
  have settledNot : ∀ (other : TaskRunner Payload) (now : Nat) (changed : TaskId)
      (answer : RunnerMessage.ToBroker Payload), isAnswer changed answer = true → (other.view taskId).state = none →
      ((other.settled opts now changed answer).1.view taskId).state = none := by
    intro other now changed answer answers unseen
    by_cases same : taskId = changed
    · subst same
      have missing : other.taskStates.get? taskId = none := unseen
      rw [settled, missing]
      exact unseen
    · rw [view_settled_of_ne other taskId opts now same answers]
      exact unseen
  -- What is left is one case for each event; most of them are about another task.
  change ((runner.step opts event).view taskId).state = none
  obtain ⟨now, event⟩ := event
  cases event with
  | message message =>
    cases message with
    | taskOfferAccept offerId changed =>
      have different : taskId ≠ changed := by
        rintro rfl
        exact notAccepted now offerId rfl
      simp only [step, onMessage, offerAccepted]
      split
      · exact unseen
      split
      · exact unseen
      · exact (OrderedMap.get?_set_of_ne _ _ different).trans unknown
    | taskCancel changed reason =>
      by_cases same : taskId = changed
      · subst same
        simpa [step, onMessage, taskCancelled, notRunning] using unseen
      · exact (view_taskCancelled_of_ne runner taskId opts now same) ▸ unseen
    | taskSettings changed settings =>
      by_cases same : taskId = changed
      · subst same
        simpa [step, onMessage, receivedSettings, notRunning] using unseen
      · exact (view_receivedSettings_of_ne runner taskId same) ▸ unseen
    | infoRequest | runnerRegistered | rpcResponse | taskDataResponse | nodeTypes => exact unseen
  | offerInterval => exact (view_sendOffers runner taskId opts now) ▸ unseen
  | close => exact unseen
  | timeoutFired changed =>
    by_cases same : taskId = changed
    · subst same
      simpa [step, timeoutFired, unknown] using unseen
    · simp only [step, timeoutFired]
      split
      · exact unseen
      · rw [view_taskTimedOut_of_ne _ taskId opts now same, view_setState_of_ne _ _ same]
        exact unseen
  | executionSucceeded changed data =>
    have one := settledNot (runner.executionSettled changed) now changed (.taskDone changed data) (by simp [isAnswer])
      unseen
    simp only [step, taskExecutionSucceeded]
    split
    · exact one
    · exact settledNot _ now changed _ (by simp [isAnswer]) one
  | executionFailed changed error => exact settledNot _ now changed _ (by simp [isAnswer]) unseen

variable {taskId : TaskId} {seen : View Payload}

theorem Phase.accepted_of_running (phase : Phase taskId seen) (running : seen.running ≠ 0) :
    .sent (.taskAccepted taskId) ∈ seen.history := by
  cases phase with
  | unknown | answered | cancelled => exact absurd rfl running
  | _ => exact List.mem_cons_self

theorem Phase.not_left_of_running (phase : Phase taskId seen) (running : seen.running ≠ 0) :
    .left taskId ∉ seen.history := by
  cases phase with
  | unknown | answered | cancelled => exact absurd rfl running
  | _ => simp

theorem Phase.of_stopped (phase : Phase taskId seen) (stopped : seen.running = 0) :
    seen.history = [] ∨ .left taskId ∈ seen.history := by
  cases phase with
  | unknown => exact .inl rfl
  | answered | cancelled => exact .inr (by simp)
  | _ => cases stopped

theorem Phase.known_of_running (phase : Phase taskId seen) (running : seen.running ≠ 0) : seen.state ≠ none := by
  cases phase with
  | unknown => exact absurd rfl running
  | _ => simp

theorem Phase.unknown_of_nothing (phase : Phase taskId seen) (nothing : seen.history = []) : seen.state = none := by
  cases phase with
  | unknown => rfl
  | _ => cases nothing

theorem Phase.of_answered (phase : Phase taskId seen) {answer : RunnerMessage.ToBroker Payload}
    (answers : isAnswer taskId answer = true) (sent : .sent answer ∈ seen.history) :
    seen.running = 0 ∧ seen.state ≠ none := by
  have notAccepted : answer ≠ .taskAccepted taskId := by
    rintro rfl
    cases answers
  cases phase with
  | answered => exact ⟨rfl, by simp⟩
  | _ => simp [notAccepted] at sent

theorem running_step {event : Nat × Event Payload} (phases : runner.Phases) (allowed : runner.Allowed event)
    (running : taskId ∈ (runner.step opts event).runningTasks) :
    taskId ∈ runner.runningTasks ∨
      .sent (.taskAccepted taskId) ∈ (runner.step opts event).log.drop runner.log.length := by
  obtain ⟨added, isAdded⟩ := prefix_step opts runner event
  have after := phases.step opts allowed taskId
  have history : ((runner.step opts event).view taskId).history =
      (runner.view taskId).history ++ added.filter (concerns taskId) := by
    simp [view, ← isAdded]
  have runs : ((runner.step opts event).view taskId).running ≠ 0 := by
    simpa [view, List.count_eq_zero] using running
  rw [← isAdded, List.drop_left]
  by_contra neither
  have stopped : (runner.view taskId).running = 0 := by
    simp only [not_or] at neither
    simpa [view, List.count_eq_zero] using neither.1
  have notAdded : .sent (.taskAccepted taskId) ∉ added.filter (concerns taskId) :=
    fun inside => neither (.inr (List.mem_of_mem_filter inside))
  rcases (phases taskId).of_stopped stopped with nothing | left
  · -- All that has happened to the task has happened in this step.
    rw [nothing, List.nil_append] at history
    exact notAdded (history ▸ after.accepted_of_running runs)
  · -- A task that has left does not come back.
    apply after.not_left_of_running runs
    rw [history]
    exact List.mem_append_left _ left

/-- A task that does not run is only started by an accepted offer. -/
theorem not_running_step {event : Nat × Event Payload} (phases : runner.Phases) (allowed : runner.Allowed event)
    (stopped : taskId ∉ runner.runningTasks)
    (notAccepted : ∀ now offerId, event ≠ (now, .message (.taskOfferAccept offerId taskId))) :
    taskId ∉ (runner.step opts event).runningTasks := by
  intro running
  obtain ⟨added, isAdded⟩ := prefix_step opts runner event
  have after := phases.step opts allowed taskId
  have runs : ((runner.step opts event).view taskId).running ≠ 0 := by
    simpa [view, List.count_eq_zero] using running
  have before := phases taskId
  have stops : (runner.view taskId).running = 0 := by simpa [view, List.count_eq_zero] using stopped
  rcases before.of_stopped stops with nothing | left
  · have unknown : (runner.view taskId).state = none := before.unknown_of_nothing nothing
    have unknown' : ((runner.step opts event).view taskId).state = none := unknown_step opts unknown notAccepted
    exact after.known_of_running runs unknown'
  · apply after.not_left_of_running runs
    have still : .left taskId ∈ (runner.step opts event).log :=
      isAdded ▸ List.mem_append_left _ (List.mem_of_mem_filter left)
    exact (mem_history (by simp [concerns])).mp still

end

end TaskRunner

/-! ## The broker, the runner and the messages in flight -/

structure BrokerAndRunner (Payload : Type) where
  broker : TaskBroker Payload
  runner : TaskRunner Payload
  /-- The messages that are in flight, in the order in which they were sent. -/
  toRunner : List (BrokerMessage.ToRunner Payload)
  toBroker : List (RunnerMessage.ToBroker Payload)

namespace BrokerAndRunner

/-- What does not change while the two run. -/
structure Opts where
  config : TaskRunnersConfig
  runnerId : RunnerId
  runner : TaskRunnerOpts

inductive Event (Payload : Type) where
  /-- Something that does not come from the runner happens to the broker. -/
  | broker (event : TaskBroker.Event Payload)
  /-- Something that does not come from the broker happens to the runner. -/
  | runner (now : Nat) (event : TaskRunner.Event Payload)
  | deliverToRunner (now : Nat)
  | deliverToBroker

def new : BrokerAndRunner Payload := { broker := .new, runner := .new, toRunner := [], toBroker := [] }

def sentToRunner (runnerId : RunnerId) : Deed Payload → Option (BrokerMessage.ToRunner Payload)
  | .toRunner receiver message => if receiver = runnerId then some message else none
  | _ => none

def sentToBroker : Happening Payload → Option (RunnerMessage.ToBroker Payload)
  | .sent message => some message
  | _ => none

/-- What the broker sends to the runner in a step is in flight after it. -/
def brokerStep (opts : Opts) (system : BrokerAndRunner Payload) (event : TaskBroker.Event Payload) :
    BrokerAndRunner Payload :=
  let broker := system.broker.step opts.config event
  let sent := (broker.log.drop system.broker.log.length).filterMap (sentToRunner opts.runnerId)
  { system with broker, toRunner := system.toRunner ++ sent }

def runnerStep (opts : Opts) (system : BrokerAndRunner Payload) (event : Nat × TaskRunner.Event Payload) :
    BrokerAndRunner Payload :=
  let runner := system.runner.step opts.runner event
  let sent := (runner.log.drop system.runner.log.length).filterMap sentToBroker
  { system with runner, toBroker := system.toBroker ++ sent }

def step (opts : Opts) (system : BrokerAndRunner Payload) : Event Payload → BrokerAndRunner Payload
  | .broker event => system.brokerStep opts event
  | .runner now event => system.runnerStep opts (now, event)
  | .deliverToRunner now => match system.toRunner with
    | [] => system
    | message :: rest => { system with toRunner := rest }.runnerStep opts (now, .message message)
  | .deliverToBroker => match system.toBroker with
    | [] => system
    | message :: rest => { system with toBroker := rest }.brokerStep opts (.runnerMessage opts.runnerId message)

/-- The two hear of each other by messages only, and the runner does not disconnect. -/
def Allowed (opts : Opts) (system : BrokerAndRunner Payload) : Event Payload → Prop
  | .broker (.runnerMessage sender _) => sender ≠ opts.runnerId
  | .broker (.deregisterRunner runnerId _) => runnerId ≠ opts.runnerId
  | .runner _ (.message _) => False
  | .runner now event => system.runner.Allowed (now, event)
  | _ => True

/-! ## Orphaned tasks -/

/-- Every message has been delivered, and an accept has been followed by what comes after it. -/
def Delivered (system : BrokerAndRunner Payload) : Prop :=
  system.toRunner = [] ∧ system.toBroker = [] ∧
    ∀ call ∈ system.broker.acceptOffers, call.progress ≠ .waitingForRunner (some .accepted)

def ToldToCancel (opts : Opts) (system : BrokerAndRunner Payload) (taskId : TaskId) : Prop :=
  ∃ reason, .toRunner opts.runnerId (.taskCancel taskId reason) ∈ system.broker.log

/-- The broker knows of every task that runs, or it has told the runner to cancel it. -/
def NoOrphan (opts : Opts) (system : BrokerAndRunner Payload) : Prop :=
  system.Delivered → ∀ taskId ∈ system.runner.runningTasks,
    system.broker.IsTaskOf opts.runnerId taskId ∨ system.ToldToCancel opts taskId

/-- The broker does not wait for the runner any more, although it has not had its accept. -/
def GaveUp (system : BrokerAndRunner Payload) (taskId : TaskId) : Prop :=
  ∃ call ∈ system.broker.acceptOffers[taskId]?, call.progress = .givenUp ∨
    ∃ outcome, outcome ≠ .accepted ∧ call.progress = .waitingForRunner (some outcome)

/-- The task is neither at the runner nor on its way to it. -/
def Gone (system : BrokerAndRunner Payload) (taskId : TaskId) : Prop :=
  taskId ∉ system.runner.runningTasks ∧ ∀ offerId, .taskOfferAccept offerId taskId ∉ system.toRunner

def Over (opts : Opts) (system : BrokerAndRunner Payload) (taskId : TaskId) : Prop :=
  system.Gone taskId ∨ system.ToldToCancel opts taskId

def AnswersOver (opts : Opts) (system : BrokerAndRunner Payload) (event : TaskBroker.Event Payload) : Prop :=
  ∀ taskId, system.broker.IsTaskOf opts.runnerId taskId → TaskBroker.Answers opts.config system.broker taskId event →
    system.Over opts taskId

/-- An accept arrives before the broker has given up, and a task of the runner is neither answered by another runner nor
by a timeout of the broker while it runs. -/
def InTime (opts : Opts) (system : BrokerAndRunner Payload) : Event Payload → Prop
  | .deliverToBroker => ∀ taskId, system.toBroker.head? = some (.taskAccepted taskId) →
    taskId ∈ system.runner.runningTasks → ¬ system.GaveUp taskId
  | .broker (.runnerMessage sender message) => system.AnswersOver opts (.runnerMessage sender message)
  | .broker (.taskTimedOut taskId) => system.AnswersOver opts (.taskTimedOut taskId)
  | _ => True

end BrokerAndRunner

/-! ## The hand-shake as the broker sees it -/

namespace TaskBroker

def asks (runnerId : RunnerId) (taskId : TaskId) : Deed Payload → Bool
  | .toRunner asked (.taskOfferAccept _ accepted) => asked = runnerId ∧ accepted = taskId
  | _ => false

/-- What the broker knows of a task, as far as it concerns one runner. -/
structure HandShake (runnerId : RunnerId) (known : Prop) (taskId : TaskId) (view : TaskView Payload) : Prop where
  asked_once : view.history.countP (asks runnerId taskId) ≤ 1
  asked : view.history.countP (asks runnerId taskId) ≠ 0 →
    known ∧ ∃ request stage, view.call = some (runnerId, request, stage)
  registered : ∀ other requesterId, view.task = some (other, requesterId) →
    ∃ request, view.call = some (other, request, .taken)
  suspended : view.answering = true ∨ view.expiring = true → IsTaken view

section

variable {broker : TaskBroker Payload} {config : TaskRunnersConfig} {event : Event Payload} {runnerId : RunnerId}
  {taskId : TaskId} {view next : TaskView Payload}

theorem countP_asks_toldRequester (requesterId : RequesterId) (message : BrokerMessage.ToRequester Payload) :
    (broker.toldRequester requesterId message).countP (asks runnerId taskId) = 0 := by
  unfold toldRequester
  split <;> simp [asks]

theorem countP_asks_told_taskCancel (other : RunnerId) (cancelled : TaskId) (reason : String) :
    (broker.told other (.taskCancel cancelled reason)).countP (asks runnerId taskId) = 0 := by
  unfold told
  split <;> simp [asks]

theorem countP_asks_ready {ready : List (Deed Payload)} {object : TaskRequest}
    (isReady : ready = [] ∨ ready = broker.toldRequester object.requesterId (.taskReady object.requestId taskId)) :
    ready.countP (asks runnerId taskId) = 0 := by
  rcases isReady with rfl | rfl
  · rfl
  · exact countP_asks_toldRequester _ _

theorem countP_asks_move (move : Move config broker taskId event view next) (called : view.call ≠ none) :
    next.history.countP (asks runnerId taskId) = view.history.countP (asks runnerId taskId) := by
  cases move with
  | asked offer request new => exact absurd new called
  | same | timeoutOver | settled | givenUp | finished => rfl
  | taken runnerId request object ready waits accepted isObject isReady =>
    simp [List.countP_append, countP_asks_ready isReady]
  | answered | failed => simp [List.countP_append, countP_asks_toldRequester]
  | dropped | expired => simp [List.countP_append, countP_asks_told_taskCancel]
  | cancelled requesterId reason cancels =>
    cases view.task <;> simp [List.countP_append, countP_asks_told_taskCancel, asks]

theorem HandShake.of_counted {known known' : Prop} (held : HandShake runnerId known taskId view)
    (counted : next.history.countP (asks runnerId taskId) = view.history.countP (asks runnerId taskId))
    (stays : known → known')
    (call : ∀ request stage, view.call = some (runnerId, request, stage) →
      ∃ request stage, next.call = some (runnerId, request, stage))
    (registered : ∀ other requesterId, next.task = some (other, requesterId) →
      ∃ request, next.call = some (other, request, .taken))
    (suspended : next.answering = true ∨ next.expiring = true → IsTaken next) :
    HandShake runnerId known' taskId next where
  asked_once := counted ▸ held.asked_once
  asked := by
    rw [counted]
    intro some_
    obtain ⟨isKnown, request, stage, isCall⟩ := held.asked some_
    exact ⟨stays isKnown, call request stage isCall⟩
  registered := registered
  suspended := suspended

theorem HandShake.move {known : Prop} (held : HandShake runnerId (runnerId ∈ broker.knownRunners) taskId view)
    (move : Move config broker taskId event view next) (stays : runnerId ∈ broker.knownRunners → known) :
    HandShake runnerId known taskId next := by
  have counted := @countP_asks_move _ _ _ _ runnerId _ _ _ move
  have isCalled : ∀ {call}, view.call = some call → view.call ≠ none := fun isCall none_ => by simp [isCall] at none_
  -- A task that is registered or suspended has been taken.
  have waitsNot : ∀ {other request}, view.call = some (other, request, .waiting) →
      view.task = none ∧ ¬ (view.answering = true ∨ view.expiring = true) := by
    intro other request waits
    refine ⟨?_, fun suspended => not_isTaken_of_waiting waits (held.suspended suspended)⟩
    rcases Option.eq_none_or_eq_some view.task with none_ | ⟨task, registered⟩
    · exact none_
    · obtain ⟨request', taken⟩ := held.registered task.1 task.2 registered
      rw [taken] at waits
      cases waits
  have sameCall : ∀ {next : TaskView Payload}, next.call = view.call → ∀ request stage,
      view.call = some (runnerId, request, stage) → ∃ request stage, next.call = some (runnerId, request, stage) :=
    fun same request stage isCall => ⟨request, stage, same.trans isCall⟩
  cases move with
  | same => exact held.of_counted rfl stays (sameCall rfl) held.registered held.suspended
  | timeoutOver expiring less =>
    exact held.of_counted rfl stays (sameCall rfl) held.registered fun suspended =>
      held.suspended (suspended.imp id less)
  | settled => exact held.of_counted rfl stays (sameCall rfl) held.registered held.suspended
  | asked offer request new =>
    have none_ : view.history.countP (asks runnerId taskId) = 0 := by
      by_contra some_
      obtain ⟨_, _, _, isCall⟩ := held.asked some_
      rw [new] at isCall
      cases isCall
    have notTaken := not_isTaken_of_new new
    have told : (broker.told offer.runnerId (.taskOfferAccept offer.offerId taskId)).countP (asks runnerId taskId) =
        if offer.runnerId = runnerId ∧ offer.runnerId ∈ broker.knownRunners then 1 else 0 := by
      unfold TaskBroker.told
      split
      next isKnown => simp [asks, isKnown]
      next unknown => simp [unknown]
    constructor
    · rw [List.countP_append, none_, told]
      split <;> omega
    · rw [List.countP_append, none_, told]
      intro some_
      split at some_
      next asked =>
        obtain ⟨rfl, isKnown⟩ := asked
        exact ⟨stays isKnown, request, .waiting, rfl⟩
      · exact absurd rfl some_
    · intro other requesterId registered
      obtain ⟨request', taken⟩ := held.registered other requesterId registered
      exact absurd ⟨_, _, taken⟩ notTaken
    · exact fun suspended => absurd (held.suspended suspended) notTaken
  | givenUp other request waits notAccepted =>
    obtain ⟨unregistered, notSuspended⟩ := waitsNot waits
    refine held.of_counted rfl stays ?_ ?_ fun suspended => absurd suspended notSuspended
    · intro request' stage isCall
      obtain ⟨rfl, _⟩ := Prod.mk.inj (Option.some.inj (waits.symm.trans isCall))
      exact ⟨request, .givenUp, rfl⟩
    · intro other' requesterId registered
      rw [unregistered] at registered
      cases registered
  | taken other request object ready waits accepted isObject isReady =>
    refine held.of_counted (counted (isCalled waits)) stays ?_ ?_ fun _ => ⟨_, _, rfl⟩
    · intro request' stage isCall
      obtain ⟨rfl, _⟩ := Prod.mk.inj (Option.some.inj (waits.symm.trans isCall))
      exact ⟨request, .taken, rfl⟩
    · intro other' requesterId registered
      obtain ⟨rfl, _⟩ := Prod.mk.inj (Option.some.inj registered)
      exact ⟨request, rfl⟩
  | answered other requesterId answer expiring less answers registered final =>
    obtain ⟨request, taken⟩ := held.registered other requesterId registered
    exact held.of_counted (counted (isCalled taken)) stays (sameCall rfl) held.registered fun _ => ⟨_, _, taken⟩
  | failed other requesterId error outcome answers lost registered same =>
    obtain ⟨request, taken⟩ := held.registered other requesterId registered
    exact held.of_counted (counted (isCalled taken)) stays (sameCall rfl) (by simp) fun _ => ⟨_, _, taken⟩
  | dropped other requesterId gaveUp registered =>
    obtain ⟨request, taken⟩ := held.registered other requesterId registered
    exact held.of_counted (counted (isCalled taken)) stays (sameCall rfl) (by simp) fun _ => ⟨_, _, taken⟩
  | cancelled requesterId reason cancels =>
    have nothing : (view.task.elim [] fun task => broker.told task.1 (.taskCancel taskId reason)).countP
        (asks runnerId taskId) = 0 := by
      cases view.task <;> simp [countP_asks_told_taskCancel]
    refine held.of_counted ?_ stays (sameCall rfl) (by simp) held.suspended
    simp [List.countP_append, nothing, asks]
  | finished answering answers =>
    exact held.of_counted rfl stays (sameCall rfl) (by simp) fun _ => held.suspended (.inl answers)
  | expired other requesterId timedOut registered =>
    obtain ⟨request, taken⟩ := held.registered other requesterId registered
    exact held.of_counted (counted (isCalled taken)) stays (sameCall rfl) held.registered fun _ => ⟨_, _, taken⟩

def HasAccept (runnerId : RunnerId) (view : TaskView Payload) : Prop :=
  view.outcome = some .accepted ∨ ∃ request, view.call = some (runnerId, request, .taken)

theorem HasAccept.move {known : Prop} (hasAccept : HasAccept runnerId view)
    (held : HandShake runnerId known taskId view)
    (asked : ∃ request stage, view.call = some (runnerId, request, stage))
    (move : Move config broker taskId event view next) : HasAccept runnerId next := by
  obtain ⟨request, stage, isCall⟩ := asked
  cases move with
  | same | timeoutOver | answered | dropped | cancelled | finished | expired => exact hasAccept
  | asked offer request new =>
    rw [new] at isCall
    cases isCall
  | settled outcome open_ accepts =>
    rcases hasAccept with accepted | taken
    · rw [open_] at accepted
      cases accepted
    · exact .inr taken
  | givenUp other request' waits notAccepted =>
    rcases hasAccept with accepted | ⟨_, taken⟩
    · exact absurd accepted notAccepted
    · rw [waits] at taken
      cases taken
  | taken other request' object ready waits accepted isObject isReady =>
    obtain ⟨rfl, _⟩ := Prod.mk.inj (Option.some.inj (waits.symm.trans isCall))
    exact .inr ⟨request', rfl⟩
  | failed other requesterId error outcome answers lost registered same =>
    obtain ⟨request', taken⟩ := held.registered other requesterId registered
    obtain ⟨rfl, _⟩ := Prod.mk.inj (Option.some.inj (taken.symm.trans isCall))
    exact .inr ⟨request', taken⟩

/-- A task that the runner has taken is registered, and nothing is left to be done about it, until it is over. -/
structure UntilOver (runnerId : RunnerId) (isOver : Prop) (view : TaskView Payload) : Prop where
  registered : ∀ request, view.call = some (runnerId, request, .taken) → view.task ≠ none ∨ isOver
  suspended : ∀ request, view.call = some (runnerId, request, .taken) →
    view.answering = true ∨ view.expiring = true → isOver

theorem UntilOver.move {known isOver isOver' : Prop} (until_ : UntilOver runnerId isOver view)
    (held : HandShake runnerId known taskId view) (move : Move config broker taskId event view next)
    (stays : ∀ error, event ≠ .deregisterRunner runnerId error) (later : view.call ≠ none → isOver → isOver')
    (answersOver : ∀ requesterId, view.task = some (runnerId, requesterId) → Answers config broker taskId event →
      isOver)
    (lostOver : runnerId ∉ broker.knownRunners → isOver)
    (toldOver : ∀ reason, broker.told runnerId (.taskCancel taskId reason) ⊆ next.history → view.call ≠ none →
      isOver') :
    UntilOver runnerId isOver' next := by
  have isCalled : ∀ {call}, view.call = some call → view.call ≠ none := fun isCall none_ => by simp [isCall] at none_
  -- The call stays as it is: nothing becomes registered or suspended, or the task is over.
  have same : next.call = view.call → (view.task ≠ none → next.task ≠ none) →
      (next.answering = true ∨ next.expiring = true → view.answering = true ∨ view.expiring = true) →
      UntilOver runnerId isOver' next := by
    intro call task suspended
    constructor
    · intro request isTaken
      rw [call] at isTaken
      exact (until_.registered request isTaken).imp task (later (isCalled isTaken))
    · intro request isTaken isSuspended
      rw [call] at isTaken
      exact later (isCalled isTaken) (until_.suspended request isTaken (suspended isSuspended))
  have over_ : next.call = view.call → (∀ request, view.call = some (runnerId, request, .taken) → isOver') →
      UntilOver runnerId isOver' next := by
    intro call over_
    constructor
    · exact fun request isTaken => .inr (over_ request (call ▸ isTaken))
    · exact fun request isTaken _ => over_ request (call ▸ isTaken)
  -- The runner that took the task is the one with which the task is registered.
  have runner : ∀ {other requesterId request}, view.task = some (other, requesterId) →
      view.call = some (runnerId, request, .taken) → other = runnerId := by
    intro other requesterId request registered isTaken
    obtain ⟨_, isCall⟩ := held.registered other requesterId registered
    exact (Prod.mk.inj (Option.some.inj (isCall.symm.trans isTaken))).1
  cases move with
  | same => exact same rfl id id
  | timeoutOver expiring less => exact same rfl id fun suspended => suspended.imp id less
  | settled => exact same rfl id id
  | asked | givenUp => constructor <;> simp
  | taken other request object ready waits accepted isObject isReady =>
    constructor
    · simp
    · intro request' _ suspended
      exact absurd (held.suspended suspended) (not_isTaken_of_waiting waits)
  | answered other requesterId answer expiring less answers registered final =>
    apply over_ rfl
    intro request isTaken
    obtain rfl := runner registered isTaken
    exact later (isCalled isTaken) (answersOver requesterId registered answers)
  | failed other requesterId error outcome answers lost registered same =>
    apply over_ rfl
    intro request isTaken
    obtain rfl := runner registered isTaken
    rcases lost with unknown | ⟨error, isEvent⟩
    · exact later (isCalled isTaken) (lostOver unknown)
    · exact absurd isEvent (stays error)
  | dropped other requesterId gaveUp registered =>
    apply over_ rfl
    intro request isTaken
    obtain rfl := runner registered isTaken
    exact toldOver _ (List.subset_append_right _ _) (isCalled isTaken)
  | cancelled requesterId reason cancels =>
    apply over_ rfl
    intro request isTaken
    rcases Option.eq_none_or_eq_some view.task with unregistered | ⟨⟨other, requesterId'⟩, registered⟩
    · -- The task was not registered any more.
      have isOver := (until_.registered request isTaken).resolve_left (not_not.mpr unregistered)
      exact later (isCalled isTaken) isOver
    · obtain rfl := runner registered isTaken
      refine toldOver reason ?_ (isCalled isTaken)
      rw [registered]
      exact List.subset_append_right _ _
  | finished answering answers =>
    apply over_ rfl
    intro request isTaken
    exact later (isCalled isTaken) (until_.suspended request isTaken (.inl answers))
  | expired other requesterId timedOut registered =>
    apply over_ rfl
    intro request isTaken
    obtain rfl := runner registered isTaken
    exact toldOver _ (List.subset_append_right _ _) (isCalled isTaken)

end

end TaskBroker

/-! ## The two sides agree -/

namespace BrokerAndRunner

def isAsk (taskId : TaskId) : BrokerMessage.ToRunner Payload → Bool
  | .taskOfferAccept _ accepted => accepted = taskId
  | _ => false

structure Agrees (opts : Opts) (system : BrokerAndRunner Payload) (taskId : TaskId) : Prop where
  /-- The runner hears of a task once for every time that it is asked to take it. -/
  asks : system.toRunner.countP (isAsk taskId) + (if system.runner.taskStates.has taskId then 1 else 0) ≤
    (system.broker.taskView taskId).history.countP (TaskBroker.asks opts.runnerId taskId)
  untilOver : TaskBroker.UntilOver opts.runnerId (system.Over opts taskId) (system.broker.taskView taskId)

/-- The accept of a task that runs is on its way to the broker, or the broker has it. -/
def AcceptKnown (opts : Opts) (system : BrokerAndRunner Payload) (taskId : TaskId) : Prop :=
  taskId ∈ system.runner.runningTasks → .taskAccepted taskId ∈ system.toBroker ∨
    TaskBroker.HasAccept opts.runnerId (system.broker.taskView taskId)

structure Invariant (opts : Opts) (system : BrokerAndRunner Payload) : Prop where
  phases : system.runner.Phases
  sent : ∀ message ∈ system.toBroker, .sent message ∈ system.runner.log
  answerable : system.broker.Answerable
  handShake : ∀ taskId, TaskBroker.HandShake opts.runnerId (opts.runnerId ∈ system.broker.knownRunners) taskId
    (system.broker.taskView taskId)
  agrees : ∀ taskId, system.Agrees opts taskId
  acceptKnown : ∀ taskId, system.AcceptKnown opts taskId

section

variable {opts : Opts} {system : BrokerAndRunner Payload}

theorem invariant_new : (new : BrokerAndRunner Payload).Invariant opts where
  phases := TaskRunner.phases_new
  sent := by simp [new]
  answerable := by simp [new, TaskBroker.new, TaskBroker.Answerable]
  handShake := by
    intro taskId
    constructor <;> simp [new, TaskBroker.new, TaskBroker.taskView]
  agrees := by
    intro taskId
    constructor
    · simp [new, TaskBroker.new, TaskRunner.new, TaskBroker.taskView, OrderedMap.has]
    · constructor <;> simp [new, TaskBroker.new, TaskBroker.taskView]
  acceptKnown := by simp [new, TaskRunner.new, AcceptKnown]

variable {taskId : TaskId}

theorem gone_iff :
    system.Gone taskId ↔ taskId ∉ system.runner.runningTasks ∧ system.toRunner.countP (isAsk taskId) = 0 := by
  refine and_congr_right fun _ => ?_
  rw [List.countP_eq_zero]
  constructor
  · intro none_ message inside ask
    cases message with
    | taskOfferAccept offerId accepted =>
      obtain rfl : accepted = taskId := by simpa [isAsk] using ask
      exact none_ offerId inside
    | _ => simp [isAsk] at ask
  · intro none_ offerId inside
    exact none_ _ inside (by simp [isAsk])

theorem Invariant.known_of_running (held : system.Invariant opts) (running : taskId ∈ system.runner.runningTasks) :
    system.runner.taskStates.has taskId = true := by
  have runs : (system.runner.view taskId).running ≠ 0 := by
    simpa [TaskRunner.view, List.count_eq_zero] using running
  have known := (held.phases taskId).known_of_running runs
  exact Option.isSome_iff_ne_none.mpr known

theorem Invariant.asked_of_running (held : system.Invariant opts) (running : taskId ∈ system.runner.runningTasks) :
    opts.runnerId ∈ system.broker.knownRunners ∧
      ∃ request stage, (system.broker.taskView taskId).call = some (opts.runnerId, request, stage) := by
  apply (held.handShake taskId).asked
  have asks := (held.agrees taskId).asks
  rw [if_pos (held.known_of_running running)] at asks
  omega

theorem Invariant.gone_of_unknown (held : system.Invariant opts) (unknown : opts.runnerId ∉ system.broker.knownRunners)
    (taskId : TaskId) : system.Gone taskId := by
  rw [gone_iff]
  constructor
  · exact fun running => unknown (held.asked_of_running running).1
  · by_contra some_
    have asks := (held.agrees taskId).asks
    exact unknown ((held.handShake taskId).asked (by omega)).1

theorem Invariant.noOrphan (held : system.Invariant opts) : system.NoOrphan opts := by
  rintro ⟨_, nothing, processed⟩ taskId running
  rcases held.acceptKnown taskId running with inFlight | accepted | ⟨request, taken⟩
  · rw [nothing] at inFlight
    cases inFlight
  · obtain ⟨call, found, settled⟩ := Option.bind_eq_some_iff.mp accepted
    have progress : call.progress = .waitingForRunner (some .accepted) := by
      cases isProgress : call.progress <;> simp_all [TaskBroker.runnerOutcome]
    exact absurd progress (processed call (List.mem_of_getElem? found))
  · rcases (held.agrees taskId).untilOver.registered request taken with registered | gone | told
    · left
      obtain ⟨⟨runnerId, requesterId⟩, isTask⟩ := Option.ne_none_iff_exists'.mp registered
      obtain ⟨_, isCall⟩ := (held.handShake taskId).registered runnerId requesterId isTask
      obtain ⟨rfl, _⟩ := Prod.mk.inj (Option.some.inj (isCall.symm.trans taken))
      obtain ⟨task, found, isRunner, _⟩ := (TaskBroker.task_eq_some system.broker taskId).mp isTask
      exact ⟨task, found, isRunner⟩
    · exact absurd running gone.1
    · exact .inr told

/-! ### A step of the runner -/

/-- The runner moves on; what it receives has been the first message in the channel. -/
theorem Invariant.runnerStep (held : system.Invariant opts) {event : Nat × TaskRunner.Event Payload}
    {rest : List (BrokerMessage.ToRunner Payload)} (allowed : system.runner.Allowed event)
    (isRest : rest <:+ system.toRunner)
    (received : ∀ now message, event = (now, .message message) → system.toRunner = message :: rest) :
    ({ system with toRunner := rest }.runnerStep opts event).Invariant opts := by
  obtain ⟨added, isAdded⟩ := TaskRunner.prefix_step opts.runner system.runner event
  -- What is over for the runner stays so: it would need another accept to take the task again.
  have isOver : ∀ taskId, system.Over opts taskId →
      ({ system with toRunner := rest }.runnerStep opts event).Over opts taskId := by
    rintro taskId (⟨stopped, none_⟩ | told)
    · have notAccepted : ∀ now offerId, event ≠ (now, .message (.taskOfferAccept offerId taskId)) := by
        intro now offerId isEvent
        apply none_ offerId
        rw [received _ _ isEvent]
        exact List.mem_cons_self
      exact .inl ⟨TaskRunner.not_running_step opts.runner held.phases allowed stopped notAccepted,
        fun offerId inside => none_ offerId (isRest.subset inside)⟩
    · exact .inr told
  constructor
  case phases => exact held.phases.step opts.runner allowed
  case sent =>
    intro message inside
    rcases List.mem_append.mp inside with earlier | later
    · exact (TaskRunner.prefix_step opts.runner system.runner event).subset (held.sent message earlier)
    · obtain ⟨happening, happened, isSent⟩ := List.mem_filterMap.mp later
      cases happening with
      | sent sent =>
        obtain rfl := Option.some.inj isSent
        exact List.mem_of_mem_drop happened
      | _ => cases isSent
  case answerable => exact held.answerable
  case handShake => exact held.handShake
  case agrees =>
    intro taskId
    have agrees := held.agrees taskId
    constructor
    case asks =>
      refine Nat.le_trans ?_ agrees.asks
      change rest.countP (isAsk taskId) +
        (if (system.runner.step opts.runner event).taskStates.has taskId then 1 else 0) ≤ _
      -- A task counts once: in the channel before the runner has received the accept, in its table after.
      by_cases accepted : ∃ now offerId, event = (now, .message (.taskOfferAccept offerId taskId))
      · obtain ⟨now, offerId, isEvent⟩ := accepted
        rw [received _ _ isEvent, List.countP_cons_of_pos (by simp [isAsk])]
        split <;> omega
      · have less := isRest.sublist.countP_le (p := isAsk taskId)
        have unknown := @TaskRunner.unknown_step _ opts.runner system.runner taskId
        simp only [not_exists] at accepted
        by_cases known : system.runner.taskStates.get? taskId = none
        · have unknown' := unknown known accepted
          simp only [OrderedMap.has, unknown', known]
          simpa using less
        · have knows : system.runner.taskStates.has taskId = true := Option.isSome_iff_ne_none.mpr known
          rw [knows]
          split <;> simp <;> omega
    case untilOver =>
      constructor
      · exact fun request taken => (agrees.untilOver.registered request taken).imp id (isOver taskId)
      · exact fun request taken suspended => isOver taskId (agrees.untilOver.suspended request taken suspended)
  case acceptKnown =>
    intro taskId running
    rcases TaskRunner.running_step opts.runner held.phases allowed running with ran | accepted
    · exact (held.acceptKnown taskId ran).imp (fun inside => List.mem_append_left _ inside) id
    · exact .inl (List.mem_append_right _ (List.mem_filterMap.mpr ⟨_, accepted, rfl⟩))

theorem Invariant.fresh (held : system.Invariant opts) {taskId : TaskId} {offerId : OfferId}
    (asked : .taskOfferAccept offerId taskId ∈ system.toRunner) : system.runner.taskStates.get? taskId = none := by
  have once := (held.handShake taskId).asked_once
  have asks := (held.agrees taskId).asks
  have some_ : 0 < system.toRunner.countP (isAsk taskId) := List.countP_pos_iff.mpr ⟨_, asked, by simp [isAsk]⟩
  by_contra known
  have knows : system.runner.taskStates.has taskId = true := Option.isSome_iff_ne_none.mpr known
  rw [if_pos knows] at asks
  omega

/-! ### A step of the broker -/

theorem countP_sentToRunner (runnerId : RunnerId) (taskId : TaskId) (deeds : List (Deed Payload)) :
    (deeds.filterMap (sentToRunner runnerId)).countP (isAsk taskId) =
      (deeds.filter (TaskBroker.concerns taskId)).countP (TaskBroker.asks runnerId taskId) := by
  induction deeds with
  | nil => rfl
  | cons deed rest ih =>
    -- Only the deed by which the runner is asked counts on either side.
    cases asked : TaskBroker.asks runnerId taskId deed with
    | true =>
      obtain ⟨offerId, rfl⟩ : ∃ offerId, deed = .toRunner runnerId (.taskOfferAccept offerId taskId) := by
        unfold TaskBroker.asks at asked
        split at asked
        · simp_all
        · cases asked
      simp [sentToRunner, isAsk, TaskBroker.asks, TaskBroker.concerns, ih]
    | false =>
      have left : ((deed :: rest).filterMap (sentToRunner runnerId)).countP (isAsk taskId) =
          (rest.filterMap (sentToRunner runnerId)).countP (isAsk taskId) := by
        cases deed with
        | toRunner receiver message =>
          by_cases isRunner : receiver = runnerId <;>
            cases message <;> simp_all [sentToRunner, isAsk, TaskBroker.asks]
        | _ => rfl
      rw [left, ih, List.filter_cons]
      split
      · rw [List.countP_cons_of_neg (by simp [asked])]
      · rfl

/-- What a step of the broker adds to the channel is what it adds to the history of the task. -/
theorem asks_brokerStep (event : TaskBroker.Event Payload) (taskId : TaskId) :
    (system.brokerStep opts event).toRunner.countP (isAsk taskId) +
        (system.broker.taskView taskId).history.countP (TaskBroker.asks opts.runnerId taskId) =
      system.toRunner.countP (isAsk taskId) +
        ((system.brokerStep opts event).broker.taskView taskId).history.countP
          (TaskBroker.asks opts.runnerId taskId) := by
  obtain ⟨added, isAdded⟩ := TaskBroker.prefix_step opts.config system.broker event
  simp only [brokerStep, TaskBroker.taskView, ← isAdded, List.drop_left, List.countP_append, List.filter_append,
    countP_sentToRunner]
  omega

theorem Over.brokerStep (isOver : system.Over opts taskId) (called : (system.broker.taskView taskId).call ≠ none)
    (event : TaskBroker.Event Payload) :
    (system.brokerStep opts event).Over opts taskId := by
  rcases isOver with gone | ⟨reason, told⟩
  · left
    rw [gone_iff] at *
    have same : ((system.brokerStep opts event).broker.taskView taskId).history.countP
        (TaskBroker.asks opts.runnerId taskId) = _ :=
      TaskBroker.countP_asks_move (TaskBroker.move_step opts.config system.broker event taskId) called
    have counted := @asks_brokerStep _ opts system event taskId
    exact ⟨gone.1, by omega⟩
  · exact .inr ⟨reason, (TaskBroker.prefix_step opts.config system.broker event).subset told⟩

theorem Invariant.agrees_brokerStep (held : system.Invariant opts) {event : TaskBroker.Event Payload}
    (stays : ∀ error, event ≠ .deregisterRunner opts.runnerId error)
    (answersOver : system.AnswersOver opts event) (taskId : TaskId) :
    (system.brokerStep opts event).Agrees opts taskId := by
  have agrees := held.agrees taskId
  constructor
  case asks =>
    have counted := @asks_brokerStep _ opts system event taskId
    have asks := agrees.asks
    change (system.brokerStep opts event).toRunner.countP (isAsk taskId) +
      (if system.runner.taskStates.has taskId then 1 else 0) ≤ _
    omega
  case untilOver =>
    have move := TaskBroker.move_step opts.config system.broker event taskId
    refine agrees.untilOver.move (held.handShake taskId) move stays (fun called isOver =>
      isOver.brokerStep called event)
      ?_ (fun unknown => .inl (held.gone_of_unknown unknown taskId)) ?_
    · intro requesterId registered answers
      obtain ⟨task, found, isRunner, _⟩ := (TaskBroker.task_eq_some system.broker taskId).mp registered
      exact answersOver taskId ⟨task, found, isRunner⟩ answers
    · intro reason told called
      by_cases known : opts.runnerId ∈ system.broker.knownRunners
      · refine .inr ⟨reason, List.mem_of_mem_filter (told ?_)⟩
        simp [TaskBroker.told, known]
      · exact Over.brokerStep (.inl (held.gone_of_unknown known taskId)) called event

/-- The broker moves on; what becomes of the accept of a task that runs is seen for itself. -/
theorem Invariant.brokerStep (held : system.Invariant opts) {event : TaskBroker.Event Payload}
    {rest : List (RunnerMessage.ToBroker Payload)} (isRest : rest <:+ system.toBroker)
    (stays : ∀ error, event ≠ .deregisterRunner opts.runnerId error)
    (answersOver : system.AnswersOver opts event)
    (acceptKnown : ∀ taskId ∈ system.runner.runningTasks, .taskAccepted taskId ∈ system.toBroker →
      .taskAccepted taskId ∈ rest ∨
        TaskBroker.HasAccept opts.runnerId ((system.broker.step opts.config event).taskView taskId)) :
    ({ system with toBroker := rest }.brokerStep opts event).Invariant opts where
  phases := held.phases
  sent := fun message inside => held.sent message (isRest.subset inside)
  answerable := TaskBroker.answerable_step opts.config system.broker event held.answerable
  handShake := fun taskId => (held.handShake taskId).move (TaskBroker.move_step opts.config system.broker event taskId)
    fun known => TaskBroker.knownRunners_step opts.config system.broker event known stays
  agrees := by
    intro taskId
    have agrees := held.agrees_brokerStep stays answersOver taskId
    exact ⟨agrees.asks, agrees.untilOver⟩
  acceptKnown := by
    intro taskId running
    rcases held.acceptKnown taskId running with inFlight | hasAccept
    · exact acceptKnown taskId running inFlight
    · exact .inr (hasAccept.move (held.handShake taskId) (held.asked_of_running running).2
        (TaskBroker.move_step opts.config system.broker event taskId))

/-- The broker has the accept of a task once it has been delivered, unless it had given up. -/
theorem Invariant.hasAccept_of_delivered (held : system.Invariant opts)
    (running : taskId ∈ system.runner.runningTasks) (waits : ¬ system.GaveUp taskId) :
    TaskBroker.HasAccept opts.runnerId ((system.broker.step opts.config
      (.runnerMessage opts.runnerId (.taskAccepted taskId))).taskView taskId) := by
  obtain ⟨known, request, stage, isCall⟩ := held.asked_of_running running
  have move := TaskBroker.move_step opts.config system.broker
    (.runnerMessage opts.runnerId (.taskAccepted taskId)) taskId
  have keeps : TaskBroker.HasAccept opts.runnerId (system.broker.taskView taskId) → _ := fun hasAccept =>
    hasAccept.move (held.handShake taskId) ⟨request, stage, isCall⟩ move
  obtain ⟨⟨offer, request', progress⟩, found, isSeen⟩ := Option.map_eq_some_iff.mp isCall
  have isStage : TaskBroker.stage progress = stage := (Prod.mk.inj (Prod.mk.inj isSeen).2).2
  have outcome : (system.broker.taskView taskId).outcome = TaskBroker.runnerOutcome progress := by
    simp [TaskBroker.taskView, found]
  cases progress with
  | waitingForRunner settled =>
    cases settled with
    | none =>
      -- The hand-shake is open, so that the accept settles it.
      have open_ : taskId ∈ system.broker.runnerAcceptRejects := held.answerable taskId _ found rfl
      left
      simp only [TaskBroker.step, TaskBroker.onRunnerMessage, known, not_true_eq_false, if_false,
        TaskBroker.handleRunnerAccept, TaskBroker.answerOffer, open_, if_true, TaskBroker.settleRunner, found]
      change ((system.broker.setProgress taskId (.waitingForRunner (some .accepted))).taskView taskId).outcome = _
      rw [TaskBroker.taskView_setProgress, if_pos rfl, isCall]
      rfl
    | some settled =>
      by_cases accepted : settled = .accepted
      · exact keeps (.inl (by rw [outcome, accepted]; rfl))
      · exact absurd ⟨_, found, .inr ⟨settled, accepted, rfl⟩⟩ waits
  | givenUp => exact absurd ⟨_, found, .inl rfl⟩ waits
  | _ =>
    obtain rfl : .taken = stage := isStage
    exact keeps (.inr ⟨request, isCall⟩)

theorem Invariant.gone_of_answered (held : system.Invariant opts) {answer : RunnerMessage.ToBroker Payload}
    (answers : TaskRunner.isAnswer taskId answer = true) (inFlight : answer ∈ system.toBroker) :
    system.Gone taskId := by
  have isAnswer : TaskRunner.answers taskId (.sent answer) = true := answers
  have sent : .sent answer ∈ (system.runner.view taskId).history :=
    (TaskRunner.mem_history (TaskRunner.concerns_of_answers isAnswer)).mp (held.sent answer inFlight)
  obtain ⟨stopped, known⟩ := (held.phases taskId).of_answered answers sent
  have notRunning : taskId ∉ system.runner.runningTasks := by
    simpa [TaskRunner.view, List.count_eq_zero] using stopped
  refine ⟨notRunning, fun offerId asked => ?_⟩
  exact known (held.fresh asked)

theorem Invariant.step (held : system.Invariant opts) {event : Event Payload} (allowed : system.Allowed opts event)
    (inTime : system.InTime opts event) : (system.step opts event).Invariant opts := by
  cases event with
  | runner now event =>
    have own : (∀ message, event ≠ .message message) ∧ system.runner.Allowed (now, event) := by
      cases event with
      | message message => exact absurd allowed id
      | _ => exact ⟨fun _ => by simp, allowed⟩
    refine held.runnerStep own.2 (List.suffix_refl _) ?_
    intro now' message isEvent
    exact absurd (Prod.mk.inj isEvent).2 (own.1 message)
  | deliverToRunner now =>
    cases inFlight : system.toRunner with
    | nil => simpa only [BrokerAndRunner.step, inFlight] using held
    | cons message rest =>
      have mayCome : system.runner.Allowed (now, .message message) := by
        cases message with
        | taskOfferAccept offerId taskId => exact held.fresh (inFlight ▸ List.mem_cons_self)
        | _ => trivial
      simp only [BrokerAndRunner.step, inFlight]
      refine held.runnerStep mayCome (inFlight ▸ List.suffix_cons _ _) ?_
      rintro now' message' isEvent
      obtain rfl := TaskRunner.Event.message.inj (Prod.mk.inj isEvent).2
      exact inFlight
  | broker event =>
    have stays : ∀ error, event ≠ .deregisterRunner opts.runnerId error := by
      rintro error rfl
      exact allowed rfl
    refine held.brokerStep (List.suffix_refl _) stays ?_ fun _ _ inside => .inl inside
    -- The runner is connected if the broker has one of its tasks.
    have lost : ∀ taskId, system.broker.IsTaskOf opts.runnerId taskId → system.broker.RunnerLost taskId →
        system.Over opts taskId := by
      rintro taskId ⟨task, found, isRunner⟩ ⟨task', found', unknown⟩
      obtain rfl : task = task' := Option.some.inj (found.symm.trans found')
      exact .inl (held.gone_of_unknown (isRunner ▸ unknown) taskId)
    cases event with
    | runnerMessage sender message => exact inTime
    | taskTimedOut timedOut => exact inTime
    | deregisterRunner runnerId error =>
      rintro taskId ⟨task, found, isRunner⟩ ⟨task', found', isRunner'⟩
      obtain rfl : task = task' := Option.some.inj (found.symm.trans found')
      exact absurd (isRunner' ▸ isRunner) allowed
    | acceptOfferGoesOn settled => 
      rintro taskId isTask ⟨rfl, isLost, _⟩
      exact lost _ isTask isLost
    | requesterMessage requesterId message =>
      intro taskId isTask answers
      cases message with
      | taskDataResponse answered | nodeTypesResponse answered | rpcResponse answered =>
        exact lost taskId isTask answers.2
      | _ => cases answers
    | goesOn call =>
      rintro taskId ⟨task, found, isRunner⟩ answers
      cases call with
      | finalAnswer answered => cases answers
      | taskTimeout timedOut =>
        obtain ⟨rfl, suspended⟩ := answers
        have registered : (system.broker.taskView timedOut).task = some (opts.runnerId, task.requesterId) :=
          (TaskBroker.task_eq_some system.broker timedOut).mpr ⟨task, found, isRunner, rfl⟩
        obtain ⟨request, isTaken⟩ := (held.handShake timedOut).registered _ _ registered
        exact (held.agrees timedOut).untilOver.suspended request isTaken (.inr (List.contains_iff_mem.mpr suspended))
    | registerRunner | registerRequester | deregisterRequester | runnerTimedOut | requesterTimedOut | timePasses =>
      exact fun _ _ answers => absurd answers id
  | deliverToBroker =>
    cases inFlight : system.toBroker with
    | nil => simpa only [BrokerAndRunner.step, inFlight] using held
    | cons message rest =>
      simp only [BrokerAndRunner.step, inFlight]
      refine held.brokerStep (inFlight ▸ List.suffix_cons _ _) (by simp) ?_ ?_
      · intro taskId _ answers
        have sent : message ∈ system.toBroker := inFlight ▸ List.mem_cons_self
        cases message with
        | taskDone answered data =>
          obtain ⟨rfl, _⟩ := answers
          exact .inl (held.gone_of_answered (by simp [TaskRunner.isAnswer]) sent)
        | taskError answered error =>
          obtain ⟨rfl, _⟩ := answers
          exact .inl (held.gone_of_answered (by simp [TaskRunner.isAnswer]) sent)
        | _ => cases answers
      · intro taskId running accepted
        rw [inFlight, List.mem_cons] at accepted
        rcases accepted with rfl | later
        · exact .inr (held.hasAccept_of_delivered running (inTime taskId (by rw [inFlight]; rfl) running))
        · exact .inl later

end

/-- As long as accepts arrive in time and running tasks are not answered by others, no run of the two leaves a task on
the runner that the broker does not know of. -/
theorem always_noOrphan (opts : Opts) (events : List (Event Payload))
    (run : Runs.Every (step opts) (fun system event => system.Allowed opts event ∧
      system.InTime opts event) new events) :
    Runs.Always (step opts) (NoOrphan opts) new events := by
  have invariant : Runs.Always (step opts) (fun system => system.Invariant opts) new events :=
    Runs.always_of_invariant (fun _ _ met held => held.step met.1 met.2) invariant_new run
  exact invariant.imp fun _ held => held.noOrphan

/-! The runner accepts a task for which the broker waits, and one for which it has stopped to wait. -/

namespace LateAccept

def opts : Opts :=
  { config := { mode := .external, taskTimeout := 60 }
    runnerId := "runner"
    runner :=
      { name := "JS Task Runner", taskType := "javascript", maxConcurrency := 1, taskTimeout := 60
        randomInt := fun _ => 0 } }

/-- Until the broker has asked the runner to take the first task. -/
def asked : List (Event Unit) :=
  [.broker (.registerRequester "requester"), .broker (.registerRunner "runner"), .deliverToRunner 1,
    .runner 2 .offerInterval, .deliverToBroker,
      .broker (.requesterMessage "requester" (.taskRequest "request" "javascript"))]

def inTime : List (Event Unit) :=
  asked ++ [.deliverToRunner 3, .deliverToBroker, .broker (.acceptOfferGoesOn 0)]

def tooLate : List (Event Unit) :=
  asked ++ [.broker (.runnerTimedOut 0), .broker (.acceptOfferGoesOn 0), .deliverToRunner 3, .deliverToBroker]

theorem inTime_noOrphan : Runs.Every (step opts)
      (fun system event => system.Allowed opts event ∧ system.InTime opts event) new inTime ∧
    Runs.Always (step opts) (NoOrphan opts) new inTime := by
  have offered : ∀ taskId, (some (.taskOffer 0 "javascript" 5000) : Option (RunnerMessage.ToBroker Unit)) ≠
      some (.taskAccepted taskId) := by simp
  have run : Runs.Every (step opts)
      (fun system event => system.Allowed opts event ∧ system.InTime opts event) new inTime := by
    refine ⟨⟨trivial, trivial⟩, ⟨trivial, trivial⟩, ⟨trivial, trivial⟩, ⟨trivial, trivial⟩, ⟨trivial, ?_⟩,
      ⟨trivial, trivial⟩, ⟨trivial, trivial⟩, ⟨trivial, ?_⟩, ⟨trivial, trivial⟩, trivial⟩
    · exact fun taskId isHead => absurd isHead (offered taskId)
    · rintro taskId isHead running ⟨call, found, gaveUp | ⟨outcome, _, gaveUp⟩⟩
      all_goals
        cases isHead
        cases found
        cases gaveUp
  exact ⟨run, always_noOrphan opts inTime run⟩

theorem tooLate_orphan : Runs.Every (step opts) (Allowed opts) new tooLate ∧
    ¬ Runs.Always (step opts) (NoOrphan opts) new tooLate := by
  refine ⟨⟨trivial, trivial, trivial, trivial, trivial, trivial, trivial, trivial, trivial, trivial, trivial⟩, ?_⟩
  intro always
  have delivered : (tooLate.foldl (step opts) new).Delivered := ⟨rfl, rfl, by decide⟩
  rcases always.final delivered 0 (by decide) with ⟨task, found, _⟩ | ⟨reason, told⟩
  · cases found
  · have log : (tooLate.foldl (step opts) new).broker.log =
        [.toRunner "runner" .runnerRegistered, .toRunner "runner" (.taskOfferAccept 0 0)] := rfl
    rw [log] at told
    simp at told

end LateAccept

end BrokerAndRunner

end N8n.TaskRunners
