import N8n.Workflows.ActiveWorkflowManager

/-! # Retries and the entries they belong to

As long as no entry leaves the activation queue, or is replaced, while a retry
of its workflow is in progress, each retry finds its own entry again when it
ends, and deactivation wins.
-/

namespace N8n.Workflows

open N8n.Core (WorkflowId)

namespace AddCall

def IsWaiting (call : AddCall) (workflowId : WorkflowId) : Prop :=
  call.isRetry = true ∧ call.workflowId = workflowId ∧
    (call.stage = .activating ∨ (∃ triggerResponses, call.stage = .polling triggerResponses) ∨ call.stage = .failing)

end AddCall

namespace ActiveWorkflowManager

def RetryWaits (manager : ActiveWorkflowManager) (workflowId : WorkflowId) (index : Nat) : Prop :=
  ∃ call, manager.addCalls[index]? = some call ∧ call.IsWaiting workflowId

/-- Entries stay in the queue while a retry waits, a removal that closes triggers finds the workflow not queued again,
and a retry that has activated its workflow does not fail any more. -/
def KeepsEntries (manager : ActiveWorkflowManager) : ActivationQueueEvent → Prop
  | .addQueuedWorkflowActivation workflowId => ∀ index, ¬ manager.RetryWaits workflowId index
  | .proceeds index .resolves => ∀ call, manager.addCalls[index]? = some call → call.isRetry = false →
      call.stage = .activating ∨ (∃ triggerResponses, call.stage = .polling triggerResponses) →
      ∀ waiting, ¬ manager.RetryWaits call.workflowId waiting
  | .proceeds index .fails | .proceeds index .throws => ∀ call, manager.addCalls[index]? = some call →
      call.isRetry = true → call.stage ≠ .activated
  | .removes index .deregisters => ∀ call, manager.removeCalls[index]? = some call → call.stage = .clearing →
      ∀ waiting, ¬ manager.RetryWaits call.workflowId waiting
  | .removes index .closes => ∀ call, manager.removeCalls[index]? = some call → call.stage = .closing →
      manager.queuedActivations call.workflowId = none
  | _ => True

/-- A retry that waits is the only one of its workflow; its entry is in the queue, with a timer that has gone off. -/
structure Owned (manager : ActiveWorkflowManager) : Prop extends Consistent manager where
  entry : ∀ workflowId index, manager.RetryWaits workflowId index → manager.queuedActivations workflowId ≠ none
  notTwice : ∀ workflowId index timer, manager.RetryWaits workflowId index → ¬ manager.IsArmed workflowId timer
  single : ∀ workflowId first second, manager.RetryWaits workflowId first → manager.RetryWaits workflowId second →
    first = second
  notQueued : ∀ workflowId, manager.removed workflowId = true → manager.queuedActivations workflowId = none

theorem Owned.new : Owned new where
  toConsistent := .new
  entry := fun _ _ ⟨_, found, _⟩ => by simp [ActiveWorkflowManager.new] at found
  notTwice := fun _ _ _ ⟨_, found, _⟩ => by simp [ActiveWorkflowManager.new] at found
  single := fun _ _ _ ⟨_, found, _⟩ => by simp [ActiveWorkflowManager.new] at found
  notQueued := fun _ _ => rfl

variable {manager : ActiveWorkflowManager} {workflowId : WorkflowId} {index : Nat}

theorem Owned.notRemoved (owned : manager.Owned) (waits : manager.RetryWaits workflowId index) :
    manager.removed workflowId = false := by
  cases removed : manager.removed workflowId with
  | false => rfl
  | true => exact absurd (owned.notQueued _ removed) (owned.entry _ _ waits)

theorem Owned.retriesInTime {event : ActivationQueueEvent} (owned : manager.Owned)
    (keeps : manager.KeepsEntries event) : manager.RetriesInTime event := by
  cases event with
  | proceeds index progress =>
    cases progress with
    | activates triggerResponses =>
      intro call isCall isRetry stage
      exact owned.notRemoved ⟨call, isCall, isRetry, rfl, Or.inl stage⟩
    | throws =>
      intro call isCall isRetry stage
      have waits : manager.RetryWaits call.workflowId index :=
        ⟨call, isCall, isRetry, rfl, Or.inr (Or.inr (stage.resolve_left (keeps call isCall isRetry)))⟩
      exact ⟨owned.notRemoved waits, fun timer => owned.notTwice _ _ timer waits⟩
    | _ => trivial
  | removes index progress =>
    cases progress with
    | closes =>
      intro call isCall stage timer armed
      obtain ⟨queued, isQueued, -⟩ := owned.queued _ _ armed
      rw [keeps call isCall stage] at isQueued
      contradiction
    | _ => trivial
  | _ => trivial

/-! ## The operations -/

variable {call : AddCall}

theorem retryWaits_setAddStage {index waiting : Nat} {stage : AddStage}
    (isCall : manager.addCalls[index]? = some call) :
    (manager.setAddStage index call stage).RetryWaits workflowId waiting ↔
      (waiting = index ∧ AddCall.IsWaiting { call with stage } workflowId) ∨
        (waiting ≠ index ∧ manager.RetryWaits workflowId waiting) := by
  obtain ⟨within, -⟩ := List.getElem?_eq_some_iff.mp isCall
  by_cases same : waiting = index
  · subst same
    simp [RetryWaits, setAddStage, List.getElem?_set_self within]
  · simp [RetryWaits, setAddStage, same, List.getElem?_set_ne (Ne.symm same)]

/-- What leaves the queue as it is, and lets no further retry wait. -/
theorem Owned.of_less {manager manager' : ActiveWorkflowManager} (owned : manager.Owned)
    (queuedActivations : manager'.queuedActivations = manager.queuedActivations)
    (timers : manager'.timers = manager.timers) (nextTimer : manager'.nextTimer = manager.nextTimer)
    (removed : manager'.removed = manager.removed)
    (less : ∀ workflowId index, manager'.RetryWaits workflowId index → manager.RetryWaits workflowId index) :
    manager'.Owned where
  toConsistent := owned.toConsistent.of_same queuedActivations timers nextTimer removed
  entry := fun workflowId index waits => by
    rw [queuedActivations]
    exact owned.entry workflowId index (less _ _ waits)
  notTwice := fun workflowId index timer waits armed =>
    owned.notTwice workflowId index timer (less _ _ waits) (by rwa [IsArmed, timers] at armed)
  single := fun workflowId first second isFirst isSecond =>
    owned.single workflowId first second (less _ _ isFirst) (less _ _ isSecond)
  notQueued := fun workflowId isRemoved => by
    rw [queuedActivations]
    exact owned.notQueued workflowId (by rwa [removed] at isRemoved)

theorem Owned.setAddStage (owned : manager.Owned) (isCall : manager.addCalls[index]? = some call) {stage : AddStage}
    (stillWaits : ∀ workflowId, AddCall.IsWaiting { call with stage } workflowId → call.IsWaiting workflowId) :
    (manager.setAddStage index call stage).Owned := by
  refine owned.of_less rfl rfl rfl rfl fun workflowId waiting waits => ?_
  obtain ⟨rfl, changed⟩ | ⟨-, unchanged⟩ := (retryWaits_setAddStage isCall).mp waits
  · exact ⟨call, isCall, stillWaits workflowId changed⟩
  · exact unchanged

theorem Owned.not_retryWaits (owned : manager.Owned) (isCall : manager.addCalls[index]? = some call)
    (waits : call.IsWaiting call.workflowId) (stage : AddStage)
    (ends : ¬ AddCall.IsWaiting { call with stage } call.workflowId) (waiting : Nat) :
    ¬ (manager.setAddStage index call stage).RetryWaits call.workflowId waiting := by
  intro stillWaits
  obtain ⟨-, stillWaits⟩ | ⟨other, stillWaits⟩ := (retryWaits_setAddStage isCall).mp stillWaits
  · exact ends stillWaits
  · exact other (owned.single _ _ _ stillWaits ⟨call, isCall, waits⟩)

theorem Owned.removeQueued (owned : manager.Owned) (noneWaits : ∀ index, ¬ manager.RetryWaits workflowId index) :
    (manager.removeQueuedWorkflowActivation workflowId).Owned := by
  have consistent := owned.toConsistent
  have isArmed := @Consistent.isArmed_removeQueued _ consistent workflowId
  have removed := consistent.removeQueued workflowId
  obtain ⟨timers, isRemoved⟩ := manager.removeQueued_eq workflowId
  rw [isRemoved] at isArmed removed ⊢
  refine ⟨removed, ?_, ?_, owned.single, ?_⟩
  · intro other index waits
    have different : other ≠ workflowId := by
      rintro rfl
      exact noneWaits index waits
    show Function.update manager.queuedActivations workflowId none other ≠ none
    rw [Function.update_of_ne different]
    exact owned.entry other index waits
  · intro other index timer waits armed
    exact owned.notTwice other index timer waits (isArmed.mp armed).2
  · intro other isRemoved
    show Function.update manager.queuedActivations workflowId none other = none
    by_cases same : other = workflowId
    · rw [same, Function.update_self]
    · rw [Function.update_of_ne same]
      exact owned.notQueued other isRemoved

theorem Owned.setRetry (owned : manager.Owned) (lastTimeout : Nat) (notRemoved : manager.removed workflowId = false)
    (notArmed : ∀ timer, ¬ manager.IsArmed workflowId timer)
    (noneWaits : ∀ index, ¬ manager.RetryWaits workflowId index) : (manager.setRetry workflowId lastTimeout).Owned := by
  refine ⟨owned.toConsistent.setRetry lastTimeout notRemoved notArmed, ?_, ?_, owned.single, ?_⟩
  · intro other index waits
    have different : other ≠ workflowId := by
      rintro rfl
      exact noneWaits index waits
    show Function.update manager.queuedActivations workflowId _ other ≠ none
    rw [Function.update_of_ne different]
    exact owned.entry other index waits
  · intro other index timer waits armed
    obtain ⟨-, rfl⟩ | ⟨-, armed⟩ := isArmed_setRetry.mp armed
    · exact noneWaits index waits
    · exact owned.notTwice other index timer waits armed
  · intro other isRemoved
    have different : other ≠ workflowId := by
      rintro rfl
      have isRemoved : manager.removed other = true := isRemoved
      rw [notRemoved] at isRemoved
      contradiction
    show Function.update manager.queuedActivations workflowId _ other = none
    rw [Function.update_of_ne different]
    exact owned.notQueued other isRemoved

theorem Owned.setRemoved (owned : manager.Owned) {removed : Bool}
    (notQueued : removed = true → manager.queuedActivations workflowId = none) :
    (manager.setRemoved workflowId removed).Owned := by
  refine ⟨owned.toConsistent.setRemoved ?_, owned.entry, owned.notTwice, owned.single, ?_⟩
  · intro isRemoved timer armed
    obtain ⟨queued, isQueued, -⟩ := owned.queued _ _ armed
    rw [notQueued isRemoved] at isQueued
    contradiction
  · intro other isRemoved
    by_cases same : other = workflowId
    · subst same
      exact notQueued (by simpa [ActiveWorkflowManager.setRemoved] using isRemoved)
    · exact owned.notQueued other
        (by simpa [ActiveWorkflowManager.setRemoved, Function.update_of_ne same] using isRemoved)

/-! ## One step -/

theorem Owned.throwAdd (owned : manager.Owned) (isCall : manager.addCalls[index]? = some call)
    (stage : call.stage = .activated ∨ call.stage = .failing) (keeps : call.isRetry = true → call.stage ≠ .activated) :
    (manager.throwAdd index call).Owned := by
  have ended (stage : AddStage) (isEnd : stage = .failed ∨ stage = .unhandledError) :
      (manager.setAddStage index call stage).Owned := by
    refine owned.setAddStage isCall ?_
    rintro workflowId ⟨-, -, waits⟩
    obtain rfl | rfl := isEnd <;> simp at waits
  obtain ⟨-, isThrown⟩ | ⟨-, -, isThrown⟩ | ⟨isRetry, queued, -, isThrown⟩ :=
    manager.throwAdd_cases index call <;> rw [isThrown]
  · exact ended _ (Or.inl rfl)
  · exact ended _ (Or.inr rfl)
  · have failing : call.stage = .failing := stage.resolve_left (keeps isRetry)
    have waits : call.IsWaiting call.workflowId := ⟨isRetry, rfl, Or.inr (Or.inr failing)⟩
    have notRemoved := owned.notRemoved ⟨call, isCall, waits⟩
    have notArmed : ∀ timer, ¬ manager.IsArmed call.workflowId timer := fun timer =>
      owned.notTwice _ _ timer ⟨call, isCall, waits⟩
    have noneWaits := owned.not_retryWaits isCall waits .failed (by simp [AddCall.IsWaiting])
    exact (ended .failed (Or.inl rfl)).setRetry _ notRemoved notArmed noneWaits

theorem Owned.proceed (owned : manager.Owned) {progress : AddProgress} (isCall : manager.addCalls[index]? = some call)
    (keeps : manager.KeepsEntries (.proceeds index progress)) :
    (manager.proceed index call call.stage progress).Owned := by
  cases progress with
  | activates triggerResponses =>
    cases stage : call.stage with
    | activating =>
      have polling : (manager.setAddStage index call (.polling triggerResponses)).Owned :=
        owned.setAddStage isCall fun workflowId waits => ⟨waits.1, waits.2.1, Or.inl stage⟩
      exact polling.of_less rfl rfl rfl rfl fun _ _ waits => waits
    | _ => exact owned
  | resolves =>
    have resolves (stage : call.stage = .activating ∨ ∃ triggerResponses, call.stage = .polling triggerResponses) :
        ((manager.setAddStage index call .activated).removeQueuedWorkflowActivation call.workflowId).Owned := by
      have activated : (manager.setAddStage index call .activated).Owned := by
        refine owned.setAddStage isCall fun workflowId waits => ?_
        simp [AddCall.IsWaiting] at waits
      apply activated.removeQueued
      cases isRetry : call.isRetry with
      | true =>
        have waits : call.IsWaiting call.workflowId := ⟨isRetry, rfl, stage.imp id Or.inl⟩
        exact owned.not_retryWaits isCall waits .activated (by simp [AddCall.IsWaiting])
      | false =>
        intro waiting waits
        obtain ⟨-, waits⟩ | ⟨-, waits⟩ := (retryWaits_setAddStage isCall).mp waits
        · simp [AddCall.IsWaiting] at waits
        · exact keeps call isCall isRetry stage waiting waits
    cases stage : call.stage with
    | activating => exact resolves (Or.inl stage)
    | polling triggerResponses => exact resolves (Or.inr ⟨triggerResponses, stage⟩)
    | _ => exact owned
  | fails =>
    have fails (waits : call.isRetry = true → call.IsWaiting call.workflowId) :
        (manager.setAddStage index call .failing).Owned := by
      refine owned.setAddStage isCall ?_
      rintro workflowId ⟨isRetry, rfl, -⟩
      exact waits isRetry
    cases stage : call.stage with
    | activating => exact fails fun isRetry => ⟨isRetry, rfl, Or.inl stage⟩
    | polling triggerResponses =>
      have failing := fails fun isRetry => ⟨isRetry, rfl, Or.inr (Or.inl ⟨triggerResponses, stage⟩)⟩
      simp only [ActiveWorkflowManager.proceed]
      split
      · exact failing.of_less rfl rfl rfl rfl fun _ _ waits => waits
      · exact failing
    | activated => exact fails fun isRetry => absurd stage (keeps call isCall isRetry)
    | _ => exact owned
  | returns =>
    cases stage : call.stage with
    | activated =>
      refine owned.setAddStage isCall fun workflowId waits => ?_
      simp [AddCall.IsWaiting] at waits
    | _ => exact owned
  | throws =>
    have throws (stage : call.stage = .activated ∨ call.stage = .failing) : (manager.throwAdd index call).Owned :=
      owned.throwAdd isCall stage (keeps call isCall)
    cases stage : call.stage with
    | activated => exact throws (Or.inl stage)
    | failing => exact throws (Or.inr stage)
    | _ => exact owned

theorem retryWaits_startAdd {workflowId armedId : WorkflowId} {isRetry : Bool} {waiting : Nat}
    (waits : (manager.startAdd armedId isRetry).RetryWaits workflowId waiting) :
    manager.RetryWaits workflowId waiting ∨
      (isRetry = true ∧ armedId = workflowId ∧ waiting = manager.addCalls.length) := by
  obtain ⟨call, isCall, waits⟩ := waits
  obtain isOld | isNew := Nat.lt_or_ge waiting manager.addCalls.length
  · exact Or.inl ⟨call, by rwa [startAdd, List.getElem?_append_left isOld] at isCall, waits⟩
  · rw [startAdd, List.getElem?_append_right isNew, List.getElem?_singleton] at isCall
    split at isCall
    next isFirst =>
      obtain rfl := Option.some.inj isCall
      exact Or.inr ⟨waits.1, waits.2.1, by omega⟩
    next => contradiction

theorem Owned.timeout (owned : manager.Owned) {timer : Nat} {retry : RetryTimer}
    (isRetry : manager.timers timer = some retry) :
    ((manager.clearTimeout timer).startAdd retry.workflowId true).Owned := by
  have armed : manager.IsArmed retry.workflowId timer := ⟨retry, isRetry, rfl⟩
  obtain ⟨queued, isQueued, isTimer⟩ := owned.queued _ _ armed
  refine ⟨(owned.toConsistent.clearTimeout timer).of_same rfl rfl rfl rfl, ?_, ?_, ?_, owned.notQueued⟩
  · intro workflowId index waits
    obtain waits | ⟨-, rfl, -⟩ := retryWaits_startAdd waits
    · exact owned.entry workflowId index waits
    · exact Option.isSome_iff_ne_none.mp (Option.isSome_of_eq_some isQueued)
  · intro workflowId index other waits stillArmed
    obtain ⟨notCleared, stillArmed⟩ := isArmed_clearTimeout.mp stillArmed
    obtain waits | ⟨-, rfl, -⟩ := retryWaits_startAdd waits
    · exact owned.notTwice workflowId index other waits stillArmed
    · exact notCleared (owned.toConsistent.atMostOne stillArmed armed)
  · intro workflowId first second isFirst isSecond
    obtain firstWaits | ⟨-, rfl, isLast⟩ := retryWaits_startAdd isFirst <;>
      obtain secondWaits | ⟨-, isSame, isLast'⟩ := retryWaits_startAdd isSecond
    · exact owned.single workflowId first second firstWaits secondWaits
    · subst isSame
      exact absurd armed (owned.notTwice _ _ _ firstWaits)
    · exact absurd armed (owned.notTwice _ _ _ secondWaits)
    · exact isLast.trans isLast'.symm

theorem Owned.completeRemove (owned : manager.Owned) (index : Nat) (call : RemoveCall)
    (notQueued : manager.queuedActivations call.workflowId = none) :
    (manager.completeRemove index call).Owned := by
  have inactive : ((manager.setRemoveStage index call .completed).setActive call.workflowId none).Owned :=
    owned.of_less rfl rfl rfl rfl fun _ _ waits => waits
  exact inactive.setRemoved fun _ => notQueued

theorem Owned.removeProceeds (owned : manager.Owned) {call : RemoveCall} {progress : RemoveProgress}
    (isCall : manager.removeCalls[index]? = some call) (keeps : manager.KeepsEntries (.removes index progress)) :
    (manager.removeProceeds index call call.stage progress).Owned := by
  cases progress with
  | deregisters =>
    cases stage : call.stage with
    | clearing =>
      have removed := owned.removeQueued (keeps call isCall stage)
      have notQueued : (manager.removeQueuedWorkflowActivation call.workflowId).queuedActivations call.workflowId =
          none := by
        obtain ⟨timers, isRemoved⟩ := manager.removeQueued_eq call.workflowId
        rw [isRemoved]
        exact Function.update_self _ _ _
      simp only [ActiveWorkflowManager.removeProceeds]
      split
      · exact removed.completeRemove index call notQueued
      · exact removed.completeRemove index call notQueued
      · exact removed.of_less rfl rfl rfl rfl fun _ _ waits => waits
    | _ => exact owned
  | closes =>
    cases stage : call.stage with
    | closing => exact owned.completeRemove index call (keeps call isCall stage)
    | _ => exact owned
  | throws => cases call.stage <;> exact owned.of_less rfl rfl rfl rfl fun _ _ waits => waits

theorem Owned.step {manager : ActiveWorkflowManager} {event : ActivationQueueEvent} (owned : manager.Owned)
    (keeps : manager.KeepsEntries event) : (manager.step event).Owned := by
  cases event with
  | addQueuedWorkflowActivation workflowId =>
    have queued : (manager.setRemoved workflowId false).Owned := owned.setRemoved nofun
    obtain ⟨timers, isRemoved⟩ := (manager.setRemoved workflowId false).removeQueued_eq workflowId
    refine (queued.removeQueued keeps).setRetry _ ?_ ?_ ?_
    · rw [isRemoved]
      exact Function.update_self _ _ _
    · intro timer armed
      exact (queued.toConsistent.isArmed_removeQueued.mp armed).1 rfl
    · rw [isRemoved]
      exact keeps
  | timeout timer =>
    simp only [ActiveWorkflowManager.step]
    cases isRetry : manager.timers timer with
    | none => exact owned
    | some retry => exact owned.timeout isRetry
  | add workflowId =>
    have started : (manager.startAdd workflowId false).Owned := by
      refine owned.of_less rfl rfl rfl rfl fun other waiting waits => ?_
      obtain waits | ⟨isRetry, -⟩ := retryWaits_startAdd waits
      · exact waits
      · contradiction
    exact started.setRemoved nofun
  | proceeds index progress =>
    simp only [ActiveWorkflowManager.step]
    cases isCall : manager.addCalls[index]? with
    | none => exact owned
    | some call => exact owned.proceed isCall keeps
  | remove workflowId => exact owned.of_less rfl rfl rfl rfl fun _ _ waits => waits
  | removes index progress =>
    simp only [ActiveWorkflowManager.step]
    cases isCall : manager.removeCalls[index]? with
    | none => exact owned
    | some call => exact owned.removeProceeds isCall keeps

/-- Deactivation wins over queued retries exactly in the runs whose retries are in time, and it wins in the runs that
keep the entries of the retries in progress. -/
theorem deactivationWins_iff_retriesInTime (events : List ActivationQueueEvent) :
    (Runs.Every step DeactivationWins new events ↔ Runs.Every step RetriesInTime new events) ∧
      (Runs.Every step KeepsEntries new events → Runs.Every step DeactivationWins new events) := by
  have wins : Runs.Every step DeactivationWins new events ↔ Runs.Every step RetriesInTime new events :=
    Runs.every_iff_every_of_kept (fun _ _ inTime consistent => Consistent.step consistent inTime)
      (fun _ _ consistent => consistent.deactivationWins_iff) .new events
  refine ⟨wins, fun keeps => wins.mpr ?_⟩
  exact Runs.every_of_invariant (fun _ _ keeps owned => Owned.step owned keeps)
    (fun _ _ keeps owned => Owned.retriesInTime owned keeps) Owned.new keeps

/-- The retry that was in progress at the removal makes the workflow active again. -/
theorem not_deactivationWins_of_late_success :
    ¬ ∀ events : List ActivationQueueEvent, Runs.Every step DeactivationWins new events := by
  intro wins
  have late := wins [.addQueuedWorkflowActivation "w", .timeout 0, .remove "w", .removes 0 .deregisters,
    .proceeds 0 (.activates 1)]
  exact late.2.2.2.2.1.notActivated "w" rfl ⟨0, ⟨"w", true, .activating⟩, 1, rfl, rfl, rfl, rfl, rfl⟩

end ActiveWorkflowManager

end N8n.Workflows
