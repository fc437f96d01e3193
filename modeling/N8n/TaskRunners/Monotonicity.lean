import N8n.TaskRunners.TaskBroker

/-! # What the broker never takes back

What has been sent stays sent, a runner stays known until it disconnects, and a
hand-shake with a runner that has not settled can be answered.
-/

namespace N8n.TaskRunners.TaskBroker

variable {Payload : Type}

/-- The broker waits for the answer of the runner, and it has not given up yet. -/
def isOpen : Progress Payload → Bool
  | .waitingForRunner none => true
  | _ => false

/-- An open hand-shake can be answered. -/
def Answerable (broker : TaskBroker Payload) : Prop :=
  ∀ taskId call, broker.acceptOffers[taskId]? = some call → isOpen call.progress = true →
    taskId ∈ broker.runnerAcceptRejects

/-- The log only grows, no runner is forgotten, and open hand-shakes can still be answered. -/
structure Continues (before after : TaskBroker Payload) : Prop where
  log : before.log <+: after.log
  knownRunners : ∀ runnerId ∈ before.knownRunners, runnerId ∈ after.knownRunners
  answerable : before.Answerable → after.Answerable

section

variable {before broker : TaskBroker Payload}

theorem Continues.refl (broker : TaskBroker Payload) : Continues broker broker :=
  ⟨List.prefix_refl _, fun _ known => known, id⟩

theorem answerable_setProgress (answerable : broker.Answerable) (taskId : TaskId) {progress : Progress Payload}
    (notOpen : isOpen progress = false) : (broker.setProgress taskId progress).Answerable := by
  intro other call found open_
  have modified : (broker.acceptOffers.modify taskId fun call => { call with progress })[other]? = some call := found
  rw [List.getElem?_modify] at modified
  obtain ⟨old, isOld, isNew⟩ := Option.map_eq_some_iff.mp modified
  split at isNew
  · rw [← isNew, notOpen] at open_
    cases open_
  · exact answerable other old isOld (by rwa [← isNew] at open_)

variable (earlier : Continues before broker)
include earlier

theorem Continues.setProgress (taskId : TaskId) {progress : Progress Payload} (notOpen : isOpen progress = false) :
    Continues before (broker.setProgress taskId progress) :=
  ⟨earlier.log, earlier.knownRunners, fun answerable =>
    answerable_setProgress (earlier.answerable answerable) taskId notOpen⟩

theorem Continues.record (deed : Deed Payload) : Continues before (broker.record deed) :=
  ⟨earlier.log.trans (List.prefix_append _ _), earlier.knownRunners, earlier.answerable⟩

theorem Continues.messageRunner (runnerId : RunnerId) (message : BrokerMessage.ToRunner Payload) :
    Continues before (broker.messageRunner runnerId message) := by
  unfold TaskBroker.messageRunner
  split
  · exact earlier.record _
  · exact earlier

theorem Continues.messageRequester (requesterId : RequesterId) (message : BrokerMessage.ToRequester Payload) :
    Continues before (broker.messageRequester requesterId message) := by
  unfold TaskBroker.messageRequester
  split
  · exact earlier.record _
  · exact earlier

variable (taskId : TaskId)

theorem Continues.erase : Continues before { broker with tasks := broker.tasks.erase taskId } :=
  ⟨earlier.log, earlier.knownRunners, earlier.answerable⟩

theorem Continues.setTimeout (timeout : Bool) : Continues before (broker.setTimeout taskId timeout) := by
  unfold TaskBroker.setTimeout
  split
  · exact earlier
  · exact ⟨earlier.log, earlier.knownRunners, earlier.answerable⟩

theorem Continues.cancelTask (reason : String) : Continues before (broker.cancelTask taskId reason) := by
  unfold TaskBroker.cancelTask
  split
  · exact earlier
  · exact (earlier.erase taskId).messageRunner _ _

theorem Continues.failTask (error : TaskFailure Payload) :
    Continues before (broker.failTask taskId error) := by
  unfold TaskBroker.failTask
  split
  · exact earlier
  · exact (earlier.erase taskId).messageRequester _ _

theorem Continues.getRunnerOrFailTask : Continues before (broker.getRunnerOrFailTask taskId).1 := by
  unfold TaskBroker.getRunnerOrFailTask
  split
  · exact earlier
  · split
    · exact earlier
    · exact earlier.failTask _ _

theorem Continues.suspend (calls : List Suspended) : Continues before { broker with suspended := calls } :=
  ⟨earlier.log, earlier.knownRunners, earlier.answerable⟩

theorem Continues.answerTask (answer : BrokerMessage.ToRequester Payload) :
    Continues before (broker.answerTask taskId answer) := by
  unfold TaskBroker.answerTask
  split
  · exact earlier
  · exact ((earlier.setTimeout taskId false).messageRequester _ answer).suspend _

theorem Continues.acceptOffer (offer : TaskOffer) (request : Nat) :
    Continues before (broker.acceptOffer offer request) := by
  apply Continues.messageRunner
  refine ⟨earlier.log, earlier.knownRunners, fun answerable => ?_⟩
  intro taskId call found open_
  rcases Nat.lt_or_ge taskId broker.acceptOffers.length with older | newer
  · have old : broker.acceptOffers[taskId]? = some call := by rwa [← List.getElem?_append_left older]
    exact List.mem_append_left _ (earlier.answerable answerable taskId call old open_)
  · have inside : taskId <
    (broker.acceptOffers ++ [(⟨offer, request, .waitingForRunner none⟩ : AcceptOffer Payload)]).length :=
      (List.getElem?_eq_some_iff.mp found).1
    have isNew : taskId = broker.acceptOffers.length := by
      rw [List.length_append, List.length_singleton] at inside
      exact Nat.le_antisymm (Nat.le_of_lt_succ inside) newer
    simp [isNew]

theorem Continues.settleRequest (request : Nat) : Continues before (broker.settleRequest request) := by
  unfold TaskBroker.settleRequest
  split
  · exact earlier
  · split
    · exact earlier
    · split
      · exact earlier
      · apply Continues.acceptOffer
        exact ⟨earlier.log, earlier.knownRunners, earlier.answerable⟩

theorem Continues.settleTasks : Continues before broker.settleTasks := by
  apply Loop.foldl_preserves (Continues before)
  · exact fun request _ state kept => kept.settleRequest request
  · exact ⟨earlier.log, earlier.knownRunners, earlier.answerable⟩

theorem Continues.settleRunner (outcome : RunnerOutcome) :
    Continues before (broker.settleRunner taskId outcome) := by
  unfold TaskBroker.settleRunner
  split
  · exact earlier.setProgress taskId rfl
  · exact earlier

theorem Continues.settleRequester (outcome : RequesterOutcome Payload) :
    Continues before (broker.settleRequester taskId outcome) := by
  unfold TaskBroker.settleRequester
  split
  · exact earlier.setProgress taskId rfl
  · exact earlier

omit earlier in
theorem not_isOpen_settleRunner {taskId : TaskId} {outcome : RunnerOutcome} {call : AcceptOffer Payload}
    (found : (broker.settleRunner taskId outcome).acceptOffers[taskId]? = some call) : isOpen call.progress =
      false := by
  unfold TaskBroker.settleRunner at found
  split at found
  next offer request isOpen =>
    simp only [TaskBroker.setProgress, List.getElem?_modify_eq, isOpen, Option.map_eq_map, Option.map_some,
      Option.some.injEq] at found
    rw [← found]
    rfl
  next notOpen =>
    obtain ⟨offer, request, progress⟩ := call
    cases progress with
    | waitingForRunner outcome =>
      cases outcome with
      | none => exact absurd found (notOpen offer request)
      | some outcome => rfl
    | _ => rfl

/-- What cannot be answered any more has settled. -/
theorem Continues.answerOffer (outcome : RunnerOutcome) :
    Continues before (broker.answerOffer taskId outcome) := by
  unfold TaskBroker.answerOffer
  split
  next waits =>
    have settled := earlier.settleRunner taskId outcome
    refine ⟨settled.log, settled.knownRunners, fun answerable => ?_⟩
    intro other call found open_
    have inside : other ∈ (broker.settleRunner taskId outcome).runnerAcceptRejects :=
      settled.answerable answerable other call found open_
    have rejects : (broker.settleRunner taskId outcome).runnerAcceptRejects = broker.runnerAcceptRejects := by
      unfold TaskBroker.settleRunner
      split <;> rfl
    rw [rejects] at inside
    have different : other ≠ taskId := by
      rintro rfl
      rw [not_isOpen_settleRunner found] at open_
      cases open_
    exact (List.mem_erase_of_ne different).mpr inside
  · exact earlier

theorem Continues.runnerSettled (offer : TaskOffer) (request : Nat) (outcome : RunnerOutcome) :
    Continues before (broker.runnerSettled taskId offer request outcome) := by
  have notTaken : Continues before (broker.offerNotTaken taskId request) := by
    have progressed := @Continues.setProgress _ _ _ earlier taskId .givenUp rfl
    exact ⟨progressed.log, progressed.knownRunners, progressed.answerable⟩
  cases outcome with
  | rejected | timedOut => exact notTaken
  | deferred => exact ⟨notTaken.log, notTaken.knownRunners, notTaken.answerable⟩
  | accepted =>
    unfold TaskBroker.runnerSettled
    dsimp only
    split
    · exact earlier
    · unfold offerTaken
      dsimp only
      split
      · refine Continues.setProgress (Continues.messageRequester ?_ _ _) taskId rfl
        exact ⟨earlier.log, earlier.knownRunners, earlier.answerable⟩
      · refine Continues.setProgress ?_ taskId rfl
        exact ⟨earlier.log, earlier.knownRunners, earlier.answerable⟩

theorem Continues.acceptOfferGoesOn : Continues before (broker.acceptOfferGoesOn taskId) := by
  unfold TaskBroker.acceptOfferGoesOn
  split
  · exact earlier
  next call _ =>
    split
    · exact earlier.runnerSettled _ _ _ _
    next outcome _ =>
      cases outcome with
      | timedOut => exact (earlier.cancelTask taskId "Unknown reason").setProgress taskId rfl
      | settings settings =>
        have found := earlier.getRunnerOrFailTask taskId
        simp only [requesterSettled]
        split
        next after runnerId result =>
          rw [result] at found
          exact found.setProgress taskId rfl
        next after result =>
          rw [result] at found
          exact (found.cancelTask taskId "Unknown reason").setProgress taskId rfl
    next runnerId settings _ =>
      unfold sendTaskSettings
      dsimp only
      split
      · exact earlier.setProgress taskId rfl
      · exact ((earlier.setProgress taskId rfl).setTimeout taskId true).messageRunner _ _
    all_goals exact earlier

theorem Continues.passToRequester (message : BrokerMessage.ToRequester Payload) :
    Continues before (broker.passToRequester taskId message) := by
  unfold TaskBroker.passToRequester
  split
  · exact earlier
  · exact earlier.messageRequester _ _

theorem Continues.passToRunner (message : BrokerMessage.ToRunner Payload) :
    Continues before (broker.passToRunner taskId message) := by
  have found := earlier.getRunnerOrFailTask taskId
  unfold TaskBroker.passToRunner
  split
  next after result => rwa [result] at found
  next after runnerId result =>
    rw [result] at found
    exact found.messageRunner runnerId message

theorem Continues.onRunnerMessage (runnerId : RunnerId) (message : RunnerMessage.ToBroker Payload) :
    Continues before (broker.onRunnerMessage runnerId message) := by
  unfold TaskBroker.onRunnerMessage
  split
  · exact earlier
  · cases message with
    | taskAccepted taskId | taskRejected taskId | taskDeferred taskId => exact earlier.answerOffer taskId _
    | taskOffer offerId taskType validFor =>
      apply Continues.settleTasks
      exact ⟨earlier.log, earlier.knownRunners, earlier.answerable⟩
    | taskDone taskId | taskError taskId => exact earlier.answerTask taskId _
    | taskDataRequest taskId | nodeTypesRequest taskId | rpc taskId => exact earlier.passToRequester taskId _
    | info => exact earlier

theorem Continues.onRequesterMessage (requesterId : RequesterId) (message : RequesterMessage.ToBroker Payload) :
    Continues before (broker.onRequesterMessage requesterId message) := by
  cases message with
  | taskSettings taskId settings =>
    simp only [TaskBroker.onRequesterMessage, handleRequesterAccept]
    split
    · have settled := earlier.settleRequester taskId (.settings settings)
      exact ⟨settled.log, settled.knownRunners, settled.answerable⟩
    · exact earlier
  | taskCancel taskId reason => exact (earlier.record _).cancelTask taskId reason
  | taskRequest requestId taskType =>
    apply Continues.settleTasks
    exact ⟨earlier.log, earlier.knownRunners, earlier.answerable⟩
  | taskDataResponse taskId | nodeTypesResponse taskId | rpcResponse taskId => exact earlier.passToRunner taskId _

theorem Continues.handleTaskTimeout (config : TaskRunnersConfig) (taskId : TaskId) :
    Continues before (broker.handleTaskTimeout config taskId) := by
  unfold TaskBroker.handleTaskTimeout
  split
  · exact earlier
  next task _ =>
    have cleared := earlier.setTimeout taskId false
    split
    · exact earlier
    · dsimp only
      split
      · exact (cleared.record .timedOutDuringTask).answerTask taskId _
      · exact (cleared.messageRunner task.runnerId _).suspend _

theorem Continues.goOn (config : TaskRunnersConfig) (call : Suspended) :
    Continues before (broker.goOn config call) := by
  unfold TaskBroker.goOn
  split
  · exact earlier
  · cases call with
    | finalAnswer taskId => exact (earlier.suspend _).erase taskId
    | taskTimeout taskId => exact (earlier.suspend _).answerTask taskId _

theorem Continues.deregisterRunner (runnerId : RunnerId) (error : TaskFailure Payload) :
    Continues { before with knownRunners := before.knownRunners.filter (· ≠ runnerId) }
      (broker.deregisterRunner runnerId error) := by
  apply Loop.foldl_preserves (Continues _)
  · exact fun entry _ state kept => (kept.failTask entry.1 error).answerOffer entry.1 .rejected
  · refine ⟨earlier.log, ?_, earlier.answerable⟩
    intro other inside
    rw [List.mem_filter] at *
    exact ⟨earlier.knownRunners other inside.1, inside.2⟩

end

section

variable (config : TaskRunnersConfig) (broker : TaskBroker Payload) (event : Event Payload)

/-- What the broker has done is never undone, and runners stay known until they disconnect. -/
theorem continues_step : (∃ runnerId error, event = .deregisterRunner runnerId error ∧
      Continues { broker with knownRunners := broker.knownRunners.filter (· ≠ runnerId) } (broker.step config event)) ∨
    Continues broker (broker.step config event) := by
  have start := Continues.refl broker
  cases event with
  | deregisterRunner runnerId error => exact .inl ⟨runnerId, error, rfl, start.deregisterRunner runnerId error⟩
  | registerRunner runnerId =>
    right
    apply Continues.messageRunner
    exact ⟨start.log, fun _ known => List.mem_insert_of_mem known, start.answerable⟩
  | runnerMessage runnerId message => exact .inr (start.onRunnerMessage runnerId message)
  | requesterMessage requesterId message => exact .inr (start.onRequesterMessage requesterId message)
  | runnerTimedOut taskId => exact .inr (start.settleRunner taskId .timedOut)
  | requesterTimedOut taskId => exact .inr (start.settleRequester taskId .timedOut)
  | taskTimedOut taskId => exact .inr (start.handleTaskTimeout config taskId)
  | acceptOfferGoesOn taskId => exact .inr (start.acceptOfferGoesOn taskId)
  | goesOn call => exact .inr (start.goOn config call)
  | registerRequester | deregisterRequester | timePasses =>
    exact .inr ⟨start.log, start.knownRunners, start.answerable⟩

theorem prefix_step : broker.log <+: (broker.step config event).log := by
  rcases continues_step config broker event with ⟨_, _, _, deregistered⟩ | continues
  · exact deregistered.log
  · exact continues.log

theorem answerable_step (answerable : broker.Answerable) : (broker.step config event).Answerable := by
  rcases continues_step config broker event with ⟨_, _, _, deregistered⟩ | continues
  · exact deregistered.answerable answerable
  · exact continues.answerable answerable

theorem knownRunners_step {runnerId : RunnerId} (known : runnerId ∈ broker.knownRunners)
    (stays : ∀ error, event ≠ .deregisterRunner runnerId error) : runnerId ∈
      (broker.step config event).knownRunners := by
  rcases continues_step config broker event with ⟨other, error, isEvent, deregistered⟩ | continues
  · have different : runnerId ≠ other := by
      rintro rfl
      exact stays error isEvent
    exact deregistered.knownRunners runnerId (List.mem_filter.mpr ⟨known, by simpa using different⟩)
  · exact continues.knownRunners runnerId known

end

end N8n.TaskRunners.TaskBroker
