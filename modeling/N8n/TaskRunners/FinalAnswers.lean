import N8n.TaskRunners.TaskMoves

/-! # Final answers

A requester is sent `taskdone` or `taskerror` for its task by the messages of
the runner, by the timeout of the task and when the runner is lost.  The first
two delete the task only after the send has been awaited, and until then the
task can be answered again.
-/

namespace N8n.TaskRunners.TaskBroker

variable {Payload : Type}

def isAnswer (taskId : TaskId) : Deed Payload → Bool
  | .toRequester _ message => isFinal taskId message
  | _ => false

def isReady (taskId : TaskId) : Deed Payload → Bool
  | .toRequester _ (.taskReady _ ready) => ready = taskId
  | _ => false

/-- What is promised about the answers to a task.  A requester knows the task from its `taskready` on. -/
structure AnsweredOnce (taskId : TaskId) (broker : TaskBroker Payload) : Prop where
  once : broker.log.countP (isAnswer taskId) ≤ 1
  not_after_cancel : ∀ before requesterId found after, broker.log =
    before ++ .cancel requesterId taskId found :: after →
    before.any (isReady taskId) = true → after.countP (isAnswer taskId) = 0

/-- A registered task of a connected requester is answered while the send of its answer is still awaited. -/
def AnswersAgain (config : TaskRunnersConfig) (broker : TaskBroker Payload) (event : Event Payload) : Prop :=
  ∃ taskId, ∃ task ∈ broker.tasks.get? taskId, task.requesterId ∈ broker.requesters ∧
    .finalAnswer taskId ∈ broker.suspended ∧ Answers config broker taskId event

/-! ## At most one answer -/

def IsTaken (view : TaskView Payload) : Prop := ∃ runnerId request, view.call = some (runnerId, request, .taken)

/-- An answer is given to a task that is registered; after that it is deleted, or its send is awaited. -/
structure AtMostOnce (taskId : TaskId) (view : TaskView Payload) : Prop where
  once : view.history.countP (isAnswer taskId) ≤ 1
  awaited : view.history.countP (isAnswer taskId) ≠ 0 → view.task = none ∨ view.answering = true
  started : view.history.countP (isAnswer taskId) ≠ 0 → IsTaken view
  registered : view.task ≠ none → IsTaken view

section

variable {broker : TaskBroker Payload} {config : TaskRunnersConfig} {event : Event Payload} {taskId : TaskId}
  {view next : TaskView Payload}

@[simp] theorem countP_isAnswer_told (runnerId : RunnerId) (message : BrokerMessage.ToRunner Payload) :
    (broker.told runnerId message).countP (isAnswer taskId) = 0 := by
  unfold told
  split <;> simp [isAnswer]

theorem countP_isAnswer_toldRequester (requesterId : RequesterId) (message : BrokerMessage.ToRequester Payload) :
    (broker.toldRequester requesterId message).countP (isAnswer taskId) =
      if requesterId ∈ broker.requesters ∧ isFinal taskId message = true then 1 else 0 := by
  unfold toldRequester
  split
  next connected =>
    cases final : isFinal taskId message <;> simp [isAnswer, final, connected]
  next gone => simp [gone]

theorem not_isTaken_of_new (new : view.call = none) : ¬ IsTaken view := by
  rintro ⟨_, _, isTaken⟩
  rw [new] at isTaken
  cases isTaken

theorem not_isTaken_of_waiting {runnerId : RunnerId} {request : Nat}
    (waits : view.call = some (runnerId, request, .waiting)) : ¬ IsTaken view := by
  rintro ⟨_, _, isTaken⟩
  rw [waits] at isTaken
  cases isTaken

theorem countP_isAnswer_ready {ready : List (Deed Payload)} {object : TaskRequest}
    (isReady : ready = [] ∨ ready = broker.toldRequester object.requesterId (.taskReady object.requestId taskId)) :
    ready.countP (isAnswer taskId) = 0 := by
  rcases isReady with rfl | rfl
  · rfl
  · rw [countP_isAnswer_toldRequester]
    simp [isFinal]

theorem countP_isAnswer_told_of_task (task : Option (RunnerId × RequesterId))
    (message : BrokerMessage.ToRunner Payload) :
    (task.elim [] fun task => broker.told task.1 message).countP (isAnswer taskId) = 0 := by
  cases task <;> simp

theorem AtMostOnce.none_of_not_taken (held : AtMostOnce taskId view) (notTaken : ¬ IsTaken view) :
    view.history.countP (isAnswer taskId) = 0 := by
  by_contra some_
  exact notTaken (held.started some_)

theorem AtMostOnce.unanswered (held : AtMostOnce taskId view)
    (same : next.history.countP (isAnswer taskId) = view.history.countP (isAnswer taskId))
    (call : next.call = view.call)
    (task : next.task = none ∨ next.task = view.task ∧ next.answering = view.answering) : AtMostOnce taskId next where
  once := by
    rw [same]
    exact held.once
  awaited := by
    intro answered
    rw [same] at answered
    rcases task with none_ | ⟨task, answering⟩
    · exact .inl none_
    · rw [task, answering]
      exact held.awaited answered
  started := by
    rw [same, IsTaken, call]
    exact held.started
  registered := by
    intro registered
    rw [IsTaken, call]
    rcases task with none_ | ⟨task, _⟩
    · exact absurd none_ registered
    · exact held.registered (task ▸ registered)

/-- A move that answers a registered task of which no answer is awaited, if its requester is connected. -/
theorem AtMostOnce.answer (held : AtMostOnce taskId view) {runnerId : RunnerId} {requesterId : RequesterId}
    {answer : BrokerMessage.ToRequester Payload} (registered : view.task = some (runnerId, requesterId))
    (notAwaited : requesterId ∈ broker.requesters → view.answering ≠ true)
    (history : next.history = view.history ++ broker.toldRequester requesterId answer)
    (call : next.call = view.call) (gone : next.task = none ∨ next.answering = true) : AtMostOnce taskId next := by
  have isTaken : IsTaken view := held.registered (by simp [registered])
  have atMost := held.once
  have awaited := held.awaited
  constructor
  · rw [history, List.countP_append, countP_isAnswer_toldRequester]
    split
    next connected =>
      -- Nothing has been answered yet: the task is registered, and no answer of it is awaited.
      have notYet := notAwaited connected.1
      simp_all
    · omega
  · exact fun _ => gone
  · rw [IsTaken, call]
    exact fun _ => isTaken
  · rw [IsTaken, call]
    exact fun _ => isTaken

/-- A move keeps it, unless it answers the task of a connected requester while an answer is awaited. -/
theorem AtMostOnce.move (held : AtMostOnce taskId view) (move : Move config broker taskId event view next)
    (notAgain : view.answering = true → ∀ runnerId requesterId, view.task = some (runnerId, requesterId) →
      requesterId ∈ broker.requesters → ¬ Answers config broker taskId event) : AtMostOnce taskId next := by
  cases move with
  | same => exact held
  | timeoutOver => exact held.unanswered rfl rfl (.inr ⟨rfl, rfl⟩)
  | settled => exact held.unanswered rfl rfl (.inr ⟨rfl, rfl⟩)
  | asked offer request new =>
    have notTaken := not_isTaken_of_new new
    have none_ := held.none_of_not_taken notTaken
    constructor <;> simp only [List.countP_append, countP_isAnswer_told, none_]
    · omega
    · simp
    · simp
    · exact fun registered => absurd (held.registered registered) notTaken
  | givenUp runnerId request waits =>
    -- A call that waits for its runner has no task and no answer yet.
    have notTaken := not_isTaken_of_waiting waits
    constructor
    · exact held.once
    · exact held.awaited
    · exact fun answered => absurd (held.started answered) notTaken
    · exact fun registered => absurd (held.registered registered) notTaken
  | taken runnerId request object ready waits accepted isObject isReady =>
    have none_ := held.none_of_not_taken (not_isTaken_of_waiting waits)
    constructor <;> simp only [List.countP_append, countP_isAnswer_ready isReady, none_]
    · omega
    · simp
    · simp
    · exact fun _ => ⟨_, _, rfl⟩
  | answered runnerId requesterId answer expiring less answers registered final =>
    refine held.answer registered ?_ rfl rfl (.inr rfl)
    exact fun connected awaited => notAgain awaited runnerId requesterId registered connected answers
  | failed runnerId requesterId error outcome answers lost registered same =>
    refine held.answer registered ?_ rfl rfl (.inl rfl)
    exact fun connected awaited => notAgain awaited runnerId requesterId registered connected answers
  | dropped | finished => exact held.unanswered (by simp) rfl (.inl rfl)
  | cancelled requesterId reason cancels =>
    exact held.unanswered (by simp [countP_isAnswer_told_of_task, isAnswer]) rfl (.inl rfl)
  | expired => exact held.unanswered (by simp) rfl (.inr ⟨rfl, rfl⟩)

end

/-! ## No answer after a cancel -/

/-- A requester that knew the task has cancelled it; `after` is what came after that. -/
def CancelledBefore (taskId : TaskId) (history after : List (Deed Payload)) : Prop :=
  ∃ before requesterId found, history = before ++ .cancel requesterId taskId found :: after ∧
    before.any (isReady taskId) = true

/-- A task that was cancelled is deleted, and it is never registered again. -/
structure SilentAfterCancel (taskId : TaskId) (view : TaskView Payload) : Prop where
  silent : ∀ after, CancelledBefore taskId view.history after → after.countP (isAnswer taskId) = 0
  deleted : ∀ after, CancelledBefore taskId view.history after → view.task = none
  ready : view.history.any (isReady taskId) = true → IsTaken view

section

variable {broker : TaskBroker Payload} {config : TaskRunnersConfig} {event : Event Payload} {taskId : TaskId}
  {view next : TaskView Payload}

/-- What comes later is later than the cancel, as long as it is no cancel itself. -/
theorem cancelledBefore_append {history later after : List (Deed Payload)}
    (noCancel : ∀ requesterId found, .cancel requesterId taskId found ∉ later)
    (cancelled : CancelledBefore taskId (history ++ later) after) :
    ∃ after', CancelledBefore taskId history after' ∧ after = after' ++ later := by
  obtain ⟨before, requesterId, found, isSplit, ready⟩ := cancelled
  rcases List.append_eq_append_iff.mp isSplit with ⟨middle, rfl, isLater⟩ | ⟨middle, rfl, isAfter⟩
  · -- The cancel would be one of the later deeds.
    exact absurd (isLater ▸ List.mem_append_right _ List.mem_cons_self) (noCancel requesterId found)
  · cases middle with
    | nil =>
      rw [List.nil_append] at isAfter
      exact absurd (isAfter ▸ List.mem_cons_self) (noCancel requesterId found)
    | cons first rest =>
      rw [List.cons_append, List.cons.injEq] at isAfter
      obtain ⟨rfl, rfl⟩ := isAfter
      exact ⟨rest, ⟨before, requesterId, found, rfl, ready⟩, rfl⟩

theorem cancelledBefore_concat {history after : List (Deed Payload)} {deed : Deed Payload}
    (cancelled : CancelledBefore taskId (history ++ [deed]) after) :
    after = [] ∨ ∃ after', CancelledBefore taskId history after' ∧ after = after' ++ [deed] := by
  obtain ⟨before, requesterId, found, isSplit, ready⟩ := cancelled
  rcases List.eq_nil_or_concat after with rfl | ⟨after', last, rfl⟩
  · exact .inl rfl
  · right
    have shifted : history ++ [deed] = (before ++ .cancel requesterId taskId found :: after') ++ [last] := by
      simpa using isSplit
    obtain ⟨rfl, same⟩ := List.append_inj' shifted rfl
    cases same
    exact ⟨after', ⟨before, requesterId, found, rfl, ready⟩, List.concat_eq_append⟩

/-- A move that cancels nothing, answers registered tasks only and registers only tasks that are not taken yet. -/
theorem SilentAfterCancel.append (held : SilentAfterCancel taskId view) {later : List (Deed Payload)}
    (history : next.history =
      view.history ++ later) (noCancel : ∀ requesterId found, .cancel requesterId taskId found ∉ later)
    (answers : view.task = none → later.countP (isAnswer taskId) = 0)
    (deleted : view.task = none → IsTaken view → next.task = none) (isTaken : IsTaken view → IsTaken next)
    (ready : later.any (isReady taskId) = true → IsTaken next) : SilentAfterCancel taskId next where
  silent := by
    intro after cancelled
    rw [history] at cancelled
    obtain ⟨after', cancelled', rfl⟩ := cancelledBefore_append noCancel cancelled
    rw [List.countP_append, held.silent after' cancelled', answers (held.deleted after' cancelled')]
  deleted := by
    intro after cancelled
    rw [history] at cancelled
    obtain ⟨after', cancelled', rfl⟩ := cancelledBefore_append noCancel cancelled
    apply deleted (held.deleted after' cancelled')
    obtain ⟨before, _, _, isSplit, isReady⟩ := cancelled'
    exact held.ready (by rw [isSplit, List.any_append, isReady, Bool.true_or])
  ready := by
    intro isReady
    rw [history, List.any_append, Bool.or_eq_true] at isReady
    rcases isReady with earlier | later
    · exact isTaken (held.ready earlier)
    · exact ready later

theorem cancel_not_mem_told (runnerId : RunnerId) (message : BrokerMessage.ToRunner Payload)
    (requesterId : RequesterId) (found : Bool) : .cancel requesterId taskId found ∉ broker.told runnerId message := by
  unfold told
  split <;> simp

theorem cancel_not_mem_toldRequester (requesterId' : RequesterId) (message : BrokerMessage.ToRequester Payload)
    (requesterId : RequesterId) (found : Bool) :
    .cancel requesterId taskId found ∉ broker.toldRequester requesterId' message := by
  unfold toldRequester
  split <;> simp

theorem any_isReady_told (runnerId : RunnerId) (message : BrokerMessage.ToRunner Payload) :
    (broker.told runnerId message).any (isReady taskId) = false := by
  unfold told
  split <;> simp [isReady]

theorem any_isReady_toldRequester_of_final {requesterId : RequesterId} {message : BrokerMessage.ToRequester Payload}
    (final : isFinal taskId message = true) :
    (broker.toldRequester requesterId message).any (isReady taskId) = false := by
  unfold toldRequester
  split
  · cases message <;> simp_all [isReady, isFinal]
  · rfl

theorem SilentAfterCancel.move (held : SilentAfterCancel taskId view)
    (move : Move config broker taskId event view next) : SilentAfterCancel taskId next := by
  cases move with
  | same => exact held
  | timeoutOver => exact ⟨held.silent, held.deleted, held.ready⟩
  | settled => exact ⟨held.silent, held.deleted, held.ready⟩
  | asked offer request new =>
    have notTaken := not_isTaken_of_new new
    refine held.append rfl (cancel_not_mem_told _ _) (fun _ => countP_isAnswer_told _ _) (fun none_ _ => none_)
      (fun isTaken => absurd isTaken notTaken) ?_
    simp [any_isReady_told]
  | givenUp runnerId request waits =>
    refine held.append (List.append_nil _).symm (by simp) (fun _ => rfl) (fun none_ _ => none_)
      (fun isTaken => absurd isTaken (not_isTaken_of_waiting waits)) (by simp)
  | taken runnerId request object ready waits accepted isObject isReady =>
    have noCancel : ∀ requesterId found, .cancel requesterId taskId found ∉ ready := by
      rcases isReady with rfl | rfl
      · simp
      · exact cancel_not_mem_toldRequester _ _
    exact held.append rfl noCancel (fun _ => countP_isAnswer_ready isReady)
      (fun _ isTaken => absurd isTaken (not_isTaken_of_waiting waits)) (fun _ => ⟨_, _, rfl⟩) fun _ => ⟨_, _, rfl⟩
  | answered runnerId requesterId answer expiring less answers registered final =>
    refine held.append rfl (cancel_not_mem_toldRequester _ _) ?_ (fun none_ _ => none_) id ?_
    · simp [registered]
    · simp [any_isReady_toldRequester_of_final final]
  | failed runnerId requesterId error outcome answers lost registered same =>
    refine held.append rfl (cancel_not_mem_toldRequester _ _) ?_ (fun _ _ => rfl) id ?_
    · simp [registered]
    · rw [any_isReady_toldRequester_of_final (by simp [isFinal])]
      simp
  | dropped runnerId requesterId gaveUp registered =>
    refine held.append rfl (cancel_not_mem_told _ _) (fun _ => countP_isAnswer_told _ _) (fun _ _ => rfl) id ?_
    simp [any_isReady_told]
  | cancelled requesterId reason cancels =>
    -- After the cancel the runner is told at most.
    have noCancel : ∀ requesterId' found, .cancel requesterId' taskId found ∉
        view.task.elim [] fun task => broker.told task.1 (.taskCancel taskId reason) := by
      intro requesterId' found
      cases view.task with
      | none => simp
      | some task => exact cancel_not_mem_told _ _ _ _
    have noReady : (view.task.elim [] fun task => broker.told task.1 (.taskCancel taskId reason)).any
        (isReady taskId) = false := by
      cases view.task with
      | none => rfl
      | some task => exact any_isReady_told _ _
    refine ⟨?_, fun _ _ => rfl, ?_⟩
    · intro after cancelled
      obtain ⟨after', cancelled', rfl⟩ := cancelledBefore_append noCancel cancelled
      rw [List.countP_append, countP_isAnswer_told_of_task]
      rcases cancelledBefore_concat cancelled' with rfl | ⟨earlier, before, rfl⟩
      · rfl
      · rw [List.countP_append, held.silent earlier before]
        simp [isAnswer]
    · intro isReady'
      rw [List.any_append, List.any_append, noReady] at isReady'
      apply held.ready
      simpa [isReady] using isReady'
  | finished answering answers =>
    exact held.append (List.append_nil _).symm (by simp) (fun _ => rfl) (fun _ _ => rfl) id (by simp)
  | expired runnerId requesterId timedOut registered =>
    refine held.append rfl (cancel_not_mem_told _ _) (fun _ => countP_isAnswer_told _ _) (fun none_ _ => none_) id ?_
    simp [any_isReady_told]

end

/-! ## Every run -/

section

variable {broker : TaskBroker Payload} {taskId : TaskId}

theorem concerns_of_isAnswer {deed : Deed Payload} (answer : isAnswer taskId deed = true) :
    concerns taskId deed = true := by
  cases deed with
  | toRequester requesterId message => cases message <;> simp_all [isAnswer, concerns, isFinal]
  | _ => simp [isAnswer] at answer

theorem concerns_of_isReady {deed : Deed Payload} (ready : isReady taskId deed = true) :
    concerns taskId deed = true := by
  cases deed with
  | toRequester requesterId message => cases message <;> simp_all [isReady, concerns]
  | _ => simp [isReady] at ready

theorem countP_filter_concerns (deeds : List (Deed Payload)) :
    (deeds.filter (concerns taskId)).countP (isAnswer taskId) = deeds.countP (isAnswer taskId) := by
  rw [List.countP_filter]
  apply List.countP_congr
  intro deed _
  cases answer : isAnswer taskId deed with
  | true => simp [concerns_of_isAnswer answer]
  | false => simp

theorem SilentAfterCancel.not_after_cancel (silent : SilentAfterCancel taskId (broker.taskView taskId))
    {before after : List (Deed Payload)} {requesterId : RequesterId} {found : Bool}
    (isSplit : broker.log = before ++ .cancel requesterId taskId found :: after)
    (ready : before.any (isReady taskId) = true) : after.countP (isAnswer taskId) = 0 := by
  rw [← countP_filter_concerns]
  apply silent.silent
  refine ⟨before.filter (concerns taskId), requesterId, found, ?_, ?_⟩
  · simp [taskView, isSplit, concerns]
  · rw [List.any_filter]
    obtain ⟨deed, inside, isReady⟩ := List.any_eq_true.mp ready
    exact List.any_eq_true.mpr ⟨deed, inside, by simp [isReady, concerns_of_isReady isReady]⟩

theorem answeredOnce_of_views (atMost : AtMostOnce taskId (broker.taskView taskId))
    (silent : SilentAfterCancel taskId (broker.taskView taskId)) : AnsweredOnce taskId broker where
  once := by
    rw [← countP_filter_concerns]
    exact atMost.once
  not_after_cancel := fun _ _ _ _ isSplit ready => silent.not_after_cancel isSplit ready

theorem atMostOnce_new : AtMostOnce taskId ((new : TaskBroker Payload).taskView taskId) := by
  constructor <;> simp [taskView, new]

theorem silentAfterCancel_new : SilentAfterCancel taskId ((new : TaskBroker Payload).taskView taskId) := by
  constructor <;> simp [taskView, new, CancelledBefore]

end

/-- If no task of a connected requester is answered again while its answer is awaited, every task is answered once at
most, and not after a cancel. -/
theorem always_answeredOnce (config : TaskRunnersConfig) (events : List (Event Payload))
    (run : Runs.Every (step config) (fun broker event => ¬ AnswersAgain config broker event) new events) :
    Runs.Always (step config) (fun broker => ∀ taskId, AnsweredOnce taskId broker) new events := by
  have invariant : Runs.Always (step config) (fun broker => ∀ taskId, AtMostOnce taskId (broker.taskView taskId) ∧
      SilentAfterCancel taskId (broker.taskView taskId)) new events := by
    refine Runs.always_of_invariant ?_ (fun _ => ⟨atMostOnce_new, silentAfterCancel_new⟩) run
    intro broker event notAgain held taskId
    have move := move_step config broker event taskId
    refine ⟨(held taskId).1.move move ?_, (held taskId).2.move move⟩
    intro awaited runnerId requesterId registered connected answers
    obtain ⟨task, found, _, rfl⟩ := (task_eq_some broker taskId).mp registered
    exact notAgain ⟨taskId, task, found, connected, List.contains_iff_mem.mp awaited, answers⟩
  exact invariant.imp fun _ held taskId => answeredOnce_of_views (held taskId).1 (held taskId).2

/-- In every run, a requester that has cancelled a task it knows gets no answer to it any more. -/
theorem always_silentAfterCancel (config : TaskRunnersConfig) (events : List (Event Payload)) :
    Runs.Always (step config) (fun broker => ∀ taskId before requesterId found after,
      broker.log = before ++ .cancel requesterId taskId found :: after → before.any (isReady taskId) = true →
        after.countP (isAnswer taskId) = 0) new events := by
  have invariant : Runs.Always (step config) (fun broker : TaskBroker Payload => ∀ taskId,
      SilentAfterCancel taskId (broker.taskView taskId)) new events :=
    Runs.always_of_invariant
      (fun broker event _ held taskId => (held taskId).move (move_step config broker event taskId))
      (fun _ => silentAfterCancel_new) (Runs.every_true new events)
  exact invariant.imp fun _ held taskId _ _ _ _ isSplit ready => (held taskId).not_after_cancel isSplit ready

/-! A runner is done and disconnects before the send of the result has been awaited. -/

namespace DoneAndLost

def config : TaskRunnersConfig := { mode := .external, taskTimeout := 60 }

def done : List (Event Unit) :=
  [.registerRunner "runner", .registerRequester "requester",
    .requesterMessage "requester" (.taskRequest "request" "javascript"),
    .runnerMessage "runner" (.taskOffer 0 "javascript" 5000), .runnerMessage "runner" (.taskAccepted 0),
    .acceptOfferGoesOn 0, .requesterMessage "requester" (.taskSettings 0 ()), .acceptOfferGoesOn 0,
    .acceptOfferGoesOn 0, .runnerMessage "runner" (.taskDone 0 ())]

def lost : Event Unit := .deregisterRunner "runner" (.error ())

theorem lost_answeredTwice : ¬ Runs.Always (step config) (fun broker => ∀ taskId, AnsweredOnce taskId broker) new
    (done ++ [lost]) := by
  intro always
  have once := (always.final 0).once
  revert once
  decide

theorem done_answeredOnce : Runs.Every (step config) (fun broker event => ¬ AnswersAgain config broker event) new done ∧
    Runs.Always (step config) (fun broker => ∀ taskId, AnsweredOnce taskId broker) new done := by
  have run : Runs.Every (step config) (fun broker event => ¬ AnswersAgain config broker event) new done := by
    -- No send is awaited until the last message.
    have nothing : ∀ {broker : TaskBroker Unit} {event}, broker.suspended = [] →
      ¬ AnswersAgain config broker event := by
      rintro broker event none_ ⟨_, _, _, _, awaited, _⟩
      rw [none_] at awaited
      cases awaited
    exact ⟨nothing rfl, nothing rfl, nothing rfl, nothing rfl, nothing rfl, nothing rfl, nothing rfl, nothing rfl,
      nothing rfl, nothing rfl, trivial⟩
  exact ⟨run, always_answeredOnce config done run⟩

end DoneAndLost

end N8n.TaskRunners.TaskBroker
