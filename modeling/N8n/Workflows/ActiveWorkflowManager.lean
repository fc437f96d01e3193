import Mathlib.Logic.Function.Basic
import N8n.Core.ScheduledTaskManager
import N8n.Library.Runs

/-! # The activation queue

`packages/cli/src/active-workflow-manager.ts` on a single main: a workflow that
could not be activated is queued, and a timer activates it again until that
succeeds or the workflow is removed.  Any number of calls of `add` and `remove`
are in progress; each event takes one of them to its next `await`.
-/

namespace N8n.Workflows

open N8n.Core (WorkflowId)

/-- One second. -/
def workflowReactivateInitialTimeout : Nat := 1000

/-- One day. -/
def workflowReactivateMaxTimeout : Nat := 24 * 60 * 60 * 1000

structure QueuedActivation where
  lastTimeout : Nat
  /-- What `setTimeout` returned. -/
  timeout : Nat
deriving DecidableEq, Repr

/-- A timer that will call the retry function of a workflow. -/
structure RetryTimer where
  workflowId : WorkflowId
  delay : Nat
deriving DecidableEq, Repr

inductive AddStage where
  /-- Up to the triggers in `activeWorkflows.add`. -/
  | activating
  /-- Active in memory, while the poll nodes are activated. -/
  | polling (triggerResponses : Nat)
  /-- Activated and not queued any more, while that is written to the database. -/
  | activated
  /-- While the activation error is registered. -/
  | failing
  | returned
  /-- The caller, or the retry function, has handled the error. -/
  | failed
  | unhandledError
deriving DecidableEq, Repr

/-- A call of `add`, by the retry function or from elsewhere. -/
structure AddCall where
  workflowId : WorkflowId
  isRetry : Bool
  stage : AddStage := .activating
deriving DecidableEq, Repr

inductive AddProgress where
  | activates (triggerResponses : Nat)
  | resolves
  | fails
  | returns
  | throws
deriving DecidableEq, Repr

inductive RemoveStage where
  /-- Up to the end of `activationErrorsService.deregister`. -/
  | clearing
  /-- While the triggers are closed. -/
  | closing
  | completed
  | failed
deriving DecidableEq, Repr

structure RemoveCall where
  workflowId : WorkflowId
  stage : RemoveStage := .clearing
deriving DecidableEq, Repr

inductive RemoveProgress where
  | deregisters
  | closes
  | throws
deriving DecidableEq, Repr

inductive ActivationQueueEvent where
  | addQueuedWorkflowActivation (workflowId : WorkflowId)
  | timeout (timer : Nat)
  | add (workflowId : WorkflowId)
  | proceeds (call : Nat) (progress : AddProgress)
  | remove (workflowId : WorkflowId)
  | removes (call : Nat) (progress : RemoveProgress)
deriving DecidableEq, Repr

structure ActiveWorkflowManager where
  queuedActivations : WorkflowId → Option QueuedActivation
  /-- The workflows in `activeWorkflows`, each with the number of its trigger responses. -/
  activeWorkflows : WorkflowId → Option Nat
  /-- The timers that are armed. -/
  timers : Nat → Option RetryTimer
  nextTimer : Nat
  addCalls : List AddCall
  removeCalls : List RemoveCall
  /-- The workflows that are not added or queued again since a removal has completed. -/
  removed : WorkflowId → Bool

namespace ActiveWorkflowManager

def new : ActiveWorkflowManager :=
  { queuedActivations := fun _ => none
    activeWorkflows := fun _ => none
    timers := fun _ => none
    nextTimer := 0
    addCalls := []
    removeCalls := []
    removed := fun _ => false }

/-! ## Timers and the queue -/

def setTimeout (manager : ActiveWorkflowManager) (workflowId : WorkflowId) (delay : Nat) : ActiveWorkflowManager :=
  { manager with
    timers := Function.update manager.timers manager.nextTimer (some { workflowId, delay })
    nextTimer := manager.nextTimer + 1 }

def clearTimeout (manager : ActiveWorkflowManager) (timeout : Nat) : ActiveWorkflowManager :=
  { manager with timers := Function.update manager.timers timeout none }

def setQueued (manager : ActiveWorkflowManager) (workflowId : WorkflowId) (queued : Option QueuedActivation) :
    ActiveWorkflowManager :=
  { manager with queuedActivations := Function.update manager.queuedActivations workflowId queued }

/-- Arms a timer and stores it with its delay. -/
def setRetry (manager : ActiveWorkflowManager) (workflowId : WorkflowId) (lastTimeout : Nat) :
    ActiveWorkflowManager :=
  (manager.setTimeout workflowId lastTimeout).setQueued workflowId
    (some { lastTimeout, timeout := manager.nextTimer })

def removeQueuedWorkflowActivation (manager : ActiveWorkflowManager) (workflowId : WorkflowId) :
    ActiveWorkflowManager :=
  match manager.queuedActivations workflowId with
  | none => manager
  | some queued => (manager.clearTimeout queued.timeout).setQueued workflowId none

def addQueuedWorkflowActivation (manager : ActiveWorkflowManager) (workflowId : WorkflowId) :
    ActiveWorkflowManager :=
  (manager.removeQueuedWorkflowActivation workflowId).setRetry workflowId workflowReactivateInitialTimeout

def nextTimeout (lastTimeout : Nat) : Nat :=
  if lastTimeout < workflowReactivateMaxTimeout then min (lastTimeout * 2) workflowReactivateMaxTimeout else lastTimeout

/-- What the retry function does with an error of `add`.  Without an entry in the queue it throws itself. -/
def retryLater (manager : ActiveWorkflowManager) (workflowId : WorkflowId) : Option ActiveWorkflowManager :=
  (manager.queuedActivations workflowId).map fun queued =>
    manager.setRetry workflowId (nextTimeout queued.lastTimeout)

/-! ## Calls in progress -/

def setActive (manager : ActiveWorkflowManager) (workflowId : WorkflowId) (active : Option Nat) :
    ActiveWorkflowManager :=
  { manager with activeWorkflows := Function.update manager.activeWorkflows workflowId active }

def setRemoved (manager : ActiveWorkflowManager) (workflowId : WorkflowId) (removed : Bool) :
    ActiveWorkflowManager :=
  { manager with removed := Function.update manager.removed workflowId removed }

def startAdd (manager : ActiveWorkflowManager) (workflowId : WorkflowId) (isRetry : Bool) : ActiveWorkflowManager :=
  { manager with addCalls := manager.addCalls ++ [{ workflowId, isRetry }] }

def setAddStage (manager : ActiveWorkflowManager) (index : Nat) (call : AddCall) (stage : AddStage) :
    ActiveWorkflowManager :=
  { manager with addCalls := manager.addCalls.set index { call with stage } }

def setRemoveStage (manager : ActiveWorkflowManager) (index : Nat) (call : RemoveCall) (stage : RemoveStage) :
    ActiveWorkflowManager :=
  { manager with removeCalls := manager.removeCalls.set index { call with stage } }

/-- A call of `add` throws. -/
def throwAdd (manager : ActiveWorkflowManager) (index : Nat) (call : AddCall) : ActiveWorkflowManager :=
  if call.isRetry then
    match manager.retryLater call.workflowId with
    | none => manager.setAddStage index call .unhandledError
    | some retried => retried.setAddStage index call .failed
  else manager.setAddStage index call .failed

def proceed (manager : ActiveWorkflowManager) (index : Nat) (call : AddCall) :
    AddStage → AddProgress → ActiveWorkflowManager
  | .activating, .activates triggerResponses =>
    (manager.setAddStage index call (.polling triggerResponses)).setActive call.workflowId (some triggerResponses)
  -- a workflow with webhooks only is never active in memory
  | .activating, .resolves | .polling _, .resolves =>
    (manager.setAddStage index call .activated).removeQueuedWorkflowActivation call.workflowId
  | .activating, .fails | .activated, .fails => manager.setAddStage index call .failing
  | .polling triggerResponses, .fails =>
    if triggerResponses = 0 then (manager.setAddStage index call .failing).setActive call.workflowId none
    else manager.setAddStage index call .failing
  | .activated, .returns => manager.setAddStage index call .returned
  -- the static data is saved outside of the `try`
  | .activated, .throws | .failing, .throws => manager.throwAdd index call
  | _, _ => manager

/-- A call of `remove` has completed. -/
def completeRemove (manager : ActiveWorkflowManager) (index : Nat) (call : RemoveCall) : ActiveWorkflowManager :=
  ((manager.setRemoveStage index call .completed).setActive call.workflowId none).setRemoved call.workflowId true

def removeProceeds (manager : ActiveWorkflowManager) (index : Nat) (call : RemoveCall) :
    RemoveStage → RemoveProgress → ActiveWorkflowManager
  | .clearing, .deregisters =>
    let removed := manager.removeQueuedWorkflowActivation call.workflowId
    match removed.activeWorkflows call.workflowId with
    | none | some 0 => removed.completeRemove index call
    | some _ => removed.setRemoveStage index call .closing
  | .closing, .closes => manager.completeRemove index call
  | .clearing, .throws | .closing, .throws => manager.setRemoveStage index call .failed
  | _, _ => manager

def step (manager : ActiveWorkflowManager) : ActivationQueueEvent → ActiveWorkflowManager
  | .addQueuedWorkflowActivation workflowId =>
    (manager.setRemoved workflowId false).addQueuedWorkflowActivation workflowId
  | .timeout timer => match manager.timers timer with
    | none => manager
    | some retry => (manager.clearTimeout timer).startAdd retry.workflowId true
  | .add workflowId => (manager.startAdd workflowId false).setRemoved workflowId false
  | .proceeds index progress => match manager.addCalls[index]? with
    | none => manager
    | some call => manager.proceed index call call.stage progress
  | .remove workflowId => { manager with removeCalls := manager.removeCalls ++ [{ workflowId }] }
  | .removes index progress => match manager.removeCalls[index]? with
    | none => manager
    | some call => manager.removeProceeds index call call.stage progress

/-! ## Deactivation wins -/

def IsArmed (manager : ActiveWorkflowManager) (workflowId : WorkflowId) (timer : Nat) : Prop :=
  ∃ retry, manager.timers timer = some retry ∧ retry.workflowId = workflowId

def RetryActivates (manager : ActiveWorkflowManager) (workflowId : WorkflowId) (event : ActivationQueueEvent) : Prop :=
  ∃ index call triggerResponses, event = .proceeds index (.activates triggerResponses) ∧
    manager.addCalls[index]? = some call ∧ call.isRetry = true ∧ call.stage = .activating ∧
    call.workflowId = workflowId

/-- A retry ends with an error that nothing handles. -/
def RetryUnhandled (manager : ActiveWorkflowManager) (workflowId : WorkflowId) (event : ActivationQueueEvent) : Prop :=
  ∃ (index : Nat) (before after : AddCall), manager.addCalls[index]? = some before ∧ before.stage ≠ .unhandledError ∧
    (manager.step event).addCalls[index]? = some after ∧ after.stage = .unhandledError ∧
    before.workflowId = workflowId

/-- What a step leaves of the retries of removed workflows, and of several timers for one workflow. -/
structure DeactivationWins (manager : ActiveWorkflowManager) (event : ActivationQueueEvent) : Prop where
  notArmed : ∀ workflowId timer, (manager.step event).removed workflowId = true →
    ¬ (manager.step event).IsArmed workflowId timer
  notActivated : ∀ workflowId, manager.removed workflowId = true → ¬ manager.RetryActivates workflowId event
  handled : ∀ workflowId, manager.removed workflowId = true → ¬ manager.RetryUnhandled workflowId event
  atMostOne : ∀ workflowId first second, (manager.step event).IsArmed workflowId first →
    (manager.step event).IsArmed workflowId second → first = second

/-- A retry activates or fails only while its workflow is not removed, and fails only while no other timer is armed
for it.  No timer is armed for a workflow when the last of its triggers is closed. -/
def RetriesInTime (manager : ActiveWorkflowManager) : ActivationQueueEvent → Prop
  | .proceeds index (.activates _) => ∀ call, manager.addCalls[index]? = some call → call.isRetry = true →
      call.stage = .activating → manager.removed call.workflowId = false
  | .proceeds index .throws => ∀ call, manager.addCalls[index]? = some call → call.isRetry = true →
      call.stage = .activated ∨ call.stage = .failing →
      manager.removed call.workflowId = false ∧ ∀ timer, ¬ manager.IsArmed call.workflowId timer
  | .removes index .closes => ∀ call, manager.removeCalls[index]? = some call → call.stage = .closing →
      ∀ timer, ¬ manager.IsArmed call.workflowId timer
  | _ => True

/-! ## The operations on the queue -/

/-- A timer that is armed is the one of the entry in the queue, and none is for a removed workflow. -/
structure Consistent (manager : ActiveWorkflowManager) : Prop where
  earlier : ∀ workflowId queued, manager.queuedActivations workflowId = some queued →
    queued.timeout < manager.nextTimer
  own : ∀ workflowId armedId queued, manager.queuedActivations workflowId = some queued →
    manager.IsArmed armedId queued.timeout → armedId = workflowId
  queued : ∀ workflowId timer, manager.IsArmed workflowId timer →
    ∃ queued, manager.queuedActivations workflowId = some queued ∧ queued.timeout = timer
  notArmed : ∀ workflowId timer, manager.removed workflowId = true → ¬ manager.IsArmed workflowId timer

theorem Consistent.new : new.Consistent where
  earlier := fun _ _ isQueued => nomatch isQueued
  own := fun _ _ _ isQueued _ => nomatch isQueued
  queued := fun _ _ ⟨_, armed, _⟩ => nomatch armed
  notArmed := fun _ _ _ ⟨_, armed, _⟩ => nomatch armed

variable {manager : ActiveWorkflowManager} {workflowId : WorkflowId}

theorem Consistent.atMostOne (consistent : manager.Consistent) {first second : Nat}
    (isFirst : manager.IsArmed workflowId first) (isSecond : manager.IsArmed workflowId second) : first = second := by
  obtain ⟨queued, isQueued, rfl⟩ := consistent.queued _ _ isFirst
  obtain ⟨queued', isQueued', rfl⟩ := consistent.queued _ _ isSecond
  rw [isQueued] at isQueued'
  rw [Option.some.inj isQueued']

theorem isArmed_setRetry {manager : ActiveWorkflowManager} {workflowId armedId : WorkflowId} {lastTimeout timer : Nat} :
    (manager.setRetry workflowId lastTimeout).IsArmed armedId timer ↔
      (timer = manager.nextTimer ∧ workflowId = armedId) ∨
        (timer ≠ manager.nextTimer ∧ manager.IsArmed armedId timer) := by
  simp only [IsArmed, setRetry, setQueued, setTimeout, Function.update_apply]
  by_cases isNew : timer = manager.nextTimer <;> simp [isNew]

theorem isArmed_clearTimeout {timeout timer : Nat} :
    (manager.clearTimeout timeout).IsArmed workflowId timer ↔ timer ≠ timeout ∧ manager.IsArmed workflowId timer := by
  simp only [IsArmed, clearTimeout, Function.update_apply]
  by_cases cleared : timer = timeout <;> simp [cleared]

theorem removeQueued_eq (manager : ActiveWorkflowManager) (workflowId : WorkflowId) :
    ∃ timers, manager.removeQueuedWorkflowActivation workflowId =
      { manager with timers, queuedActivations := Function.update manager.queuedActivations workflowId none } := by
  unfold removeQueuedWorkflowActivation
  cases found : manager.queuedActivations workflowId with
  | none =>
    have unchanged : Function.update manager.queuedActivations workflowId none = manager.queuedActivations := by
      rw [← found, Function.update_eq_self]
    exact ⟨manager.timers, by rw [unchanged]⟩
  | some queued => exact ⟨_, rfl⟩

/-- A workflow that leaves the queue leaves no timer. -/
theorem Consistent.isArmed_removeQueued {manager : ActiveWorkflowManager} (consistent : manager.Consistent)
    {workflowId armedId : WorkflowId} {timer : Nat} :
    (manager.removeQueuedWorkflowActivation workflowId).IsArmed armedId timer ↔
      armedId ≠ workflowId ∧ manager.IsArmed armedId timer := by
  unfold removeQueuedWorkflowActivation
  cases found : manager.queuedActivations workflowId with
  | none =>
    refine ⟨fun armed => ⟨?_, armed⟩, fun armed => armed.2⟩
    rintro rfl
    obtain ⟨queued, isQueued, -⟩ := consistent.queued _ _ armed
    rw [found] at isQueued
    contradiction
  | some queued =>
    show (manager.clearTimeout queued.timeout).IsArmed armedId timer ↔ _
    rw [isArmed_clearTimeout]
    refine and_congr_left fun armed => not_congr ?_
    constructor
    · rintro rfl
      exact consistent.own _ _ _ found armed
    · rintro rfl
      obtain ⟨queued', isQueued, isTimer⟩ := consistent.queued _ _ armed
      rw [found] at isQueued
      obtain rfl := Option.some.inj isQueued
      exact isTimer.symm

theorem Consistent.removeQueued (consistent : manager.Consistent) (workflowId : WorkflowId) :
    (manager.removeQueuedWorkflowActivation workflowId).Consistent := by
  have isArmed := @Consistent.isArmed_removeQueued _ consistent workflowId
  obtain ⟨timers, isRemoved⟩ := manager.removeQueued_eq workflowId
  rw [isRemoved] at isArmed ⊢
  have kept : ∀ other queued, Function.update manager.queuedActivations workflowId none other = some queued →
      manager.queuedActivations other = some queued := by
    intro other queued isQueued
    by_cases same : other = workflowId
    · subst same
      rw [Function.update_self] at isQueued
      contradiction
    · rwa [Function.update_of_ne same] at isQueued
  refine ⟨?_, ?_, ?_, ?_⟩
  · intro other queued isQueued
    exact consistent.earlier _ _ (kept _ _ isQueued)
  · intro other armedId queued isQueued armed
    exact consistent.own _ _ _ (kept _ _ isQueued) (isArmed.mp armed).2
  · intro other timer armed
    obtain ⟨different, armed⟩ := isArmed.mp armed
    obtain ⟨queued, isQueued, isTimer⟩ := consistent.queued _ _ armed
    exact ⟨queued, (Function.update_of_ne different _ _).trans isQueued, isTimer⟩
  · intro other timer removed armed
    exact consistent.notArmed _ _ removed (isArmed.mp armed).2

theorem Consistent.setRetry (consistent : manager.Consistent) (lastTimeout : Nat)
    (notRemoved : manager.removed workflowId = false) (notArmed : ∀ timer, ¬ manager.IsArmed workflowId timer) :
    (manager.setRetry workflowId lastTimeout).Consistent := by
  have isQueued : (manager.setRetry workflowId lastTimeout).queuedActivations =
      Function.update manager.queuedActivations workflowId (some { lastTimeout, timeout := manager.nextTimer }) := rfl
  refine ⟨?_, ?_, ?_, ?_⟩
  · intro other queued found
    show queued.timeout < manager.nextTimer + 1
    rw [isQueued] at found
    by_cases same : other = workflowId
    · subst same
      rw [Function.update_self] at found
      obtain rfl := Option.some.inj found
      exact Nat.lt_succ_self _
    · rw [Function.update_of_ne same] at found
      exact Nat.lt_succ_of_lt (consistent.earlier _ _ found)
  · intro other armedId queued found armed
    rw [isQueued] at found
    by_cases same : other = workflowId
    · subst same
      rw [Function.update_self] at found
      obtain rfl := Option.some.inj found
      obtain ⟨-, rfl⟩ | ⟨isOther, -⟩ := isArmed_setRetry.mp armed
      · rfl
      · exact absurd rfl isOther
    · rw [Function.update_of_ne same] at found
      obtain ⟨isNew, -⟩ | ⟨-, armed⟩ := isArmed_setRetry.mp armed
      · exact absurd isNew (Nat.ne_of_lt (consistent.earlier _ _ found))
      · exact consistent.own _ _ _ found armed
  · intro armedId timer armed
    rw [isQueued]
    obtain ⟨rfl, rfl⟩ | ⟨-, before⟩ := isArmed_setRetry.mp armed
    · exact ⟨_, Function.update_self _ _ _, rfl⟩
    · obtain ⟨queued, found, isTimer⟩ := consistent.queued _ _ before
      have different : armedId ≠ workflowId := by
        rintro rfl
        exact notArmed timer before
      exact ⟨queued, by rwa [Function.update_of_ne different], isTimer⟩
  · intro armedId timer removed armed
    have stillRemoved : manager.removed armedId = true := removed
    obtain ⟨-, rfl⟩ | ⟨-, armed⟩ := isArmed_setRetry.mp armed
    · rw [notRemoved] at stillRemoved
      contradiction
    · exact consistent.notArmed _ _ stillRemoved armed

theorem Consistent.setRemoved (consistent : manager.Consistent) {removed : Bool}
    (notArmed : removed = true → ∀ timer, ¬ manager.IsArmed workflowId timer) :
    (manager.setRemoved workflowId removed).Consistent := by
  refine ⟨consistent.earlier, consistent.own, consistent.queued, ?_⟩
  intro other timer isRemoved armed
  by_cases same : other = workflowId
  · subst same
    have isTrue : removed = true := by simpa [ActiveWorkflowManager.setRemoved] using isRemoved
    exact notArmed isTrue timer armed
  · have isRemoved : manager.removed other = true := by
      simpa [ActiveWorkflowManager.setRemoved, Function.update_of_ne same] using isRemoved
    exact consistent.notArmed _ _ isRemoved armed

theorem Consistent.clearTimeout (consistent : manager.Consistent) (timer : Nat) :
    (manager.clearTimeout timer).Consistent where
  earlier := consistent.earlier
  own := fun _ _ _ isQueued armed => consistent.own _ _ _ isQueued (isArmed_clearTimeout.mp armed).2
  queued := fun _ _ armed => consistent.queued _ _ (isArmed_clearTimeout.mp armed).2
  notArmed := fun _ _ removed armed => consistent.notArmed _ _ removed (isArmed_clearTimeout.mp armed).2

theorem Consistent.of_same {manager manager' : ActiveWorkflowManager} (consistent : manager.Consistent)
    (queuedActivations : manager'.queuedActivations = manager.queuedActivations)
    (timers : manager'.timers = manager.timers) (nextTimer : manager'.nextTimer = manager.nextTimer)
    (removed : manager'.removed = manager.removed) : manager'.Consistent := by
  obtain ⟨_, _, _, _, _, _, _⟩ := manager
  obtain ⟨_, _, _, _, _, _, _⟩ := manager'
  subst queuedActivations timers nextTimer removed
  exact ⟨consistent.earlier, consistent.own, consistent.queued, consistent.notArmed⟩

/-! ## One step -/

theorem throwAdd_cases (manager : ActiveWorkflowManager) (index : Nat) (call : AddCall) :
    (call.isRetry = false ∧ manager.throwAdd index call = manager.setAddStage index call .failed) ∨
    (call.isRetry = true ∧ manager.queuedActivations call.workflowId = none ∧
      manager.throwAdd index call = manager.setAddStage index call .unhandledError) ∨
    (call.isRetry = true ∧ ∃ queued, manager.queuedActivations call.workflowId = some queued ∧
      manager.throwAdd index call =
        (manager.setRetry call.workflowId (nextTimeout queued.lastTimeout)).setAddStage index call .failed) := by
  by_cases isRetry : call.isRetry = true
  · cases found : manager.queuedActivations call.workflowId with
    | none => exact Or.inr (Or.inl ⟨isRetry, rfl, by simp [ActiveWorkflowManager.throwAdd, isRetry, retryLater, found]⟩)
    | some queued =>
      refine Or.inr (Or.inr ⟨isRetry, queued, rfl, ?_⟩)
      simp only [ActiveWorkflowManager.throwAdd, isRetry, retryLater, found, if_true, Option.map_some]
  · exact Or.inl ⟨Bool.eq_false_iff.mpr isRetry, if_neg isRetry⟩

theorem Consistent.throwAdd (consistent : manager.Consistent) (index : Nat) (call : AddCall)
    (inTime : call.isRetry = true → manager.removed call.workflowId = false ∧
      ∀ timer, ¬ manager.IsArmed call.workflowId timer) : (manager.throwAdd index call).Consistent := by
  obtain ⟨-, isThrown⟩ | ⟨-, -, isThrown⟩ | ⟨isRetry, queued, -, isThrown⟩ :=
    manager.throwAdd_cases index call <;> rw [isThrown]
  · exact consistent.of_same rfl rfl rfl rfl
  · exact consistent.of_same rfl rfl rfl rfl
  · obtain ⟨notRemoved, notArmed⟩ := inTime isRetry
    exact (consistent.setRetry _ notRemoved notArmed).of_same rfl rfl rfl rfl

variable {index : Nat}

theorem Consistent.proceed (consistent : manager.Consistent) {call : AddCall} {progress : AddProgress}
    (isCall : manager.addCalls[index]? = some call) (inTime : manager.RetriesInTime (.proceeds index progress)) :
    (manager.proceed index call call.stage progress).Consistent := by
  cases progress with
  | activates triggerResponses =>
    cases call.stage <;> exact consistent.of_same rfl rfl rfl rfl
  | resolves =>
    have activated : (manager.setAddStage index call .activated).Consistent := consistent.of_same rfl rfl rfl rfl
    cases call.stage with
    | activating | polling triggerResponses => exact activated.removeQueued call.workflowId
    | _ => exact consistent
  | fails =>
    cases call.stage with
    | polling triggerResponses =>
      simp only [ActiveWorkflowManager.proceed]
      split <;> exact consistent.of_same rfl rfl rfl rfl
    | _ => exact consistent.of_same rfl rfl rfl rfl
  | returns =>
    cases call.stage <;> exact consistent.of_same rfl rfl rfl rfl
  | throws =>
    have throws (stage : call.stage = .activated ∨ call.stage = .failing) :
        (manager.throwAdd index call).Consistent :=
      consistent.throwAdd index call fun isRetry => inTime call isCall isRetry stage
    cases stage : call.stage with
    | activated => exact throws (Or.inl stage)
    | failing => exact throws (Or.inr stage)
    | _ => exact consistent

theorem Consistent.completeRemove (consistent : manager.Consistent) (index : Nat) (call : RemoveCall)
    (notArmed : ∀ timer, ¬ manager.IsArmed call.workflowId timer) :
    (manager.completeRemove index call).Consistent := by
  have inactive : ((manager.setRemoveStage index call .completed).setActive call.workflowId none).Consistent :=
    consistent.of_same rfl rfl rfl rfl
  exact inactive.setRemoved fun _ => notArmed

theorem Consistent.removeProceeds (consistent : manager.Consistent) {call : RemoveCall} {progress : RemoveProgress}
    (isCall : manager.removeCalls[index]? = some call) (inTime : manager.RetriesInTime (.removes index progress)) :
    (manager.removeProceeds index call call.stage progress).Consistent := by
  cases progress with
  | deregisters =>
    cases call.stage with
    | clearing =>
      have removed := consistent.removeQueued call.workflowId
      have notArmed :
          ∀ timer, ¬ (manager.removeQueuedWorkflowActivation call.workflowId).IsArmed call.workflowId timer :=
        fun timer armed => (consistent.isArmed_removeQueued.mp armed).1 rfl
      simp only [ActiveWorkflowManager.removeProceeds]
      split
      · exact removed.completeRemove index call notArmed
      · exact removed.completeRemove index call notArmed
      · exact removed.of_same rfl rfl rfl rfl
    | _ => exact consistent
  | closes =>
    cases stage : call.stage with
    | closing => exact consistent.completeRemove index call (inTime call isCall stage)
    | _ => exact consistent
  | throws =>
    cases call.stage <;> exact consistent.of_same rfl rfl rfl rfl

theorem Consistent.step {manager : ActiveWorkflowManager} {event : ActivationQueueEvent}
    (consistent : manager.Consistent) (inTime : manager.RetriesInTime event) : (manager.step event).Consistent := by
  cases event with
  | addQueuedWorkflowActivation workflowId =>
    have queued : (manager.setRemoved workflowId false).Consistent := consistent.setRemoved fun isTrue => nomatch isTrue
    obtain ⟨timers, isRemoved⟩ := (manager.setRemoved workflowId false).removeQueued_eq workflowId
    refine (queued.removeQueued workflowId).setRetry _ ?_ ?_
    · rw [isRemoved]
      exact Function.update_self _ _ _
    · intro timer armed
      exact (queued.isArmed_removeQueued.mp armed).1 rfl
  | timeout timer =>
    simp only [ActiveWorkflowManager.step]
    cases manager.timers timer with
    | none => exact consistent
    | some retry => exact (consistent.clearTimeout timer).of_same rfl rfl rfl rfl
  | add workflowId =>
    have started : (manager.startAdd workflowId false).Consistent := consistent.of_same rfl rfl rfl rfl
    exact started.setRemoved fun isTrue => nomatch isTrue
  | proceeds index progress =>
    simp only [ActiveWorkflowManager.step]
    cases isCall : manager.addCalls[index]? with
    | none => exact consistent
    | some call => exact consistent.proceed isCall inTime
  | remove workflowId => exact consistent.of_same rfl rfl rfl rfl
  | removes index progress =>
    simp only [ActiveWorkflowManager.step]
    cases isCall : manager.removeCalls[index]? with
    | none => exact consistent
    | some call => exact consistent.removeProceeds isCall inTime

/-! ## Unhandled errors -/

theorem removeQueued_addCalls (manager : ActiveWorkflowManager) (workflowId : WorkflowId) :
    (manager.removeQueuedWorkflowActivation workflowId).addCalls = manager.addCalls := by
  obtain ⟨timers, isRemoved⟩ := manager.removeQueued_eq workflowId
  rw [isRemoved]

theorem removeProceeds_addCalls (manager : ActiveWorkflowManager) (index : Nat) (call : RemoveCall)
    (stage : RemoveStage) (progress : RemoveProgress) :
    (manager.removeProceeds index call stage progress).addCalls = manager.addCalls := by
  have isKept := manager.removeQueued_addCalls call.workflowId
  cases progress with
  | deregisters =>
    cases stage with
    | clearing =>
      simp only [removeProceeds]
      split <;> exact isKept
    | _ => rfl
  | closes | throws => cases stage <;> rfl

/-- A retry that throws while its workflow is not in the queue. -/
def Unhandled (manager : ActiveWorkflowManager) (call : AddCall) (progress : AddProgress) : Prop :=
  progress = .throws ∧ call.isRetry = true ∧ (call.stage = .activated ∨ call.stage = .failing) ∧
    manager.queuedActivations call.workflowId = none

theorem proceed_addCalls {call : AddCall} (progress : AddProgress) (isCall : manager.addCalls[index]? = some call) :
    ∃ stage, (manager.proceed index call call.stage progress).addCalls =
        manager.addCalls.set index { call with stage } ∧
      (stage = .unhandledError → call.stage = .unhandledError ∨ manager.Unhandled call progress) := by
  have unchanged : ∃ stage, manager.addCalls = manager.addCalls.set index { call with stage } ∧
      (stage = .unhandledError → call.stage = .unhandledError ∨ manager.Unhandled call progress) := by
    obtain ⟨within, rfl⟩ := List.getElem?_eq_some_iff.mp isCall
    exact ⟨_, (List.set_getElem_self within).symm, Or.inl⟩
  cases progress with
  | activates triggerResponses =>
    cases stage : call.stage with
    | activating => exact ⟨.polling triggerResponses, rfl, nofun⟩
    | _ => rwa [stage] at unchanged
  | resolves =>
    have isKept := (manager.setAddStage index call .activated).removeQueued_addCalls call.workflowId
    cases stage : call.stage with
    | activating | polling triggerResponses => exact ⟨.activated, isKept, nofun⟩
    | _ => rwa [stage] at unchanged
  | fails =>
    cases stage : call.stage with
    | activating | activated => exact ⟨.failing, rfl, nofun⟩
    | polling triggerResponses =>
      simp only [proceed]
      split <;> exact ⟨.failing, rfl, nofun⟩
    | _ => rwa [stage] at unchanged
  | returns =>
    cases stage : call.stage with
    | activated => exact ⟨.returned, rfl, nofun⟩
    | _ => rwa [stage] at unchanged
  | throws =>
    have throws (stage : call.stage = .activated ∨ call.stage = .failing) :
        ∃ stage, (manager.throwAdd index call).addCalls = manager.addCalls.set index { call with stage } ∧
          (stage = .unhandledError → call.stage = .unhandledError ∨ manager.Unhandled call .throws) := by
      obtain ⟨-, isThrown⟩ | ⟨isRetry, found, isThrown⟩ | ⟨-, queued, -, isThrown⟩ :=
        manager.throwAdd_cases index call <;> rw [isThrown]
      · exact ⟨.failed, rfl, nofun⟩
      · exact ⟨.unhandledError, rfl, fun _ => Or.inr ⟨rfl, isRetry, stage, found⟩⟩
      · exact ⟨.failed, rfl, nofun⟩
    cases stage : call.stage with
    | activated =>
      have thrown := throws (Or.inl stage)
      rwa [stage] at thrown
    | failing =>
      have thrown := throws (Or.inr stage)
      rwa [stage] at thrown
    | _ => rwa [stage] at unchanged

/-- The only step that leaves an error unhandled is that of a retry whose workflow is not in the queue any more. -/
theorem retryUnhandled_iff {event : ActivationQueueEvent} :
    manager.RetryUnhandled workflowId event ↔ ∃ index call progress, event = .proceeds index progress ∧
      manager.addCalls[index]? = some call ∧ manager.Unhandled call progress ∧ call.workflowId = workflowId := by
  constructor
  · rintro ⟨index, before, after, isBefore, notBefore, isAfter, unhandled, rfl⟩
    obtain ⟨within, -⟩ := List.getElem?_eq_some_iff.mp isBefore
    have contradiction_of_same (same : (manager.step event).addCalls[index]? = manager.addCalls[index]?) : False := by
      rw [isAfter, isBefore] at same
      rw [← Option.some.inj same, unhandled] at notBefore
      exact notBefore rfl
    cases event with
    | addQueuedWorkflowActivation workflowId =>
      refine (contradiction_of_same ?_).elim
      exact congrArg (·[index]?) ((manager.setRemoved workflowId false).removeQueued_addCalls workflowId)
    | timeout timer =>
      refine (contradiction_of_same ?_).elim
      simp only [ActiveWorkflowManager.step]
      cases manager.timers timer with
      | none => rfl
      | some retry => exact List.getElem?_append_left within
    | add workflowId => exact (contradiction_of_same (List.getElem?_append_left within)).elim
    | proceeds called progress =>
      cases isCall : manager.addCalls[called]? with
      | none =>
        refine (contradiction_of_same ?_).elim
        simp only [ActiveWorkflowManager.step, isCall]
      | some call =>
        obtain ⟨stage, isSet, cause⟩ := proceed_addCalls progress isCall
        have isStep : (manager.step (.proceeds called progress)).addCalls =
            manager.addCalls.set called { call with stage } := by
          simpa only [ActiveWorkflowManager.step, isCall] using isSet
        by_cases same : called = index
        · subst same
          obtain rfl := Option.some.inj (isCall.symm.trans isBefore)
          rw [isStep, List.getElem?_set_self within] at isAfter
          obtain rfl := Option.some.inj isAfter
          obtain already | unhandled := cause unhandled
          · exact absurd already notBefore
          · exact ⟨called, call, progress, rfl, isCall, unhandled, rfl⟩
        · refine (contradiction_of_same ?_).elim
          rw [isStep, List.getElem?_set_ne same]
    | remove workflowId => exact (contradiction_of_same rfl).elim
    | removes called progress =>
      refine (contradiction_of_same ?_).elim
      simp only [ActiveWorkflowManager.step]
      cases manager.removeCalls[called]? with
      | none => rfl
      | some call => rw [removeProceeds_addCalls]
  · rintro ⟨index, call, progress, rfl, isCall, ⟨rfl, isRetry, stage, found⟩, rfl⟩
    refine ⟨index, call, { call with stage := .unhandledError }, isCall, ?_, ?_, rfl, rfl⟩
    · obtain stage | stage := stage <;> rw [stage] <;> exact nofun
    · have thrown : manager.step (.proceeds index .throws) = manager.setAddStage index call .unhandledError := by
        obtain stage | stage := stage <;>
          simp only [ActiveWorkflowManager.step, isCall, stage, ActiveWorkflowManager.proceed,
            ActiveWorkflowManager.throwAdd, isRetry, retryLater, found, Option.map_none, if_true]
      rw [thrown]
      obtain ⟨within, -⟩ := List.getElem?_eq_some_iff.mp isCall
      exact List.getElem?_set_self within

theorem Consistent.deactivationWins_iff {event : ActivationQueueEvent} (consistent : manager.Consistent) :
    manager.DeactivationWins event ↔ manager.RetriesInTime event := by
  constructor
  · intro wins
    cases event with
    | proceeds index progress =>
      cases progress with
      | activates triggerResponses =>
        intro call isCall isRetry stage
        cases removed : manager.removed call.workflowId with
        | false => rfl
        | true =>
          exact absurd ⟨index, call, triggerResponses, rfl, isCall, isRetry, stage, rfl⟩
            (wins.notActivated call.workflowId removed)
      | throws =>
        intro call isCall isRetry stage
        have isStep : manager.step (.proceeds index .throws) = manager.throwAdd index call := by
          obtain stage | stage := stage <;>
            simp only [ActiveWorkflowManager.step, isCall, stage, ActiveWorkflowManager.proceed]
        obtain ⟨notRetry, -⟩ | ⟨-, found, -⟩ | ⟨-, queued, found, isThrown⟩ :=
          manager.throwAdd_cases index call
        · rw [isRetry] at notRetry
          contradiction
        · constructor
          · cases removed : manager.removed call.workflowId with
            | false => rfl
            | true =>
              have unhandled := retryUnhandled_iff.mpr
                ⟨index, call, .throws, rfl, isCall, ⟨rfl, isRetry, stage, found⟩, rfl⟩
              exact absurd unhandled (wins.handled _ removed)
          · intro timer armed
            obtain ⟨queued, isQueued, -⟩ := consistent.queued _ _ armed
            rw [found] at isQueued
            contradiction
        · have notArmed := wins.notArmed call.workflowId manager.nextTimer
          have atMostOne := wins.atMostOne call.workflowId
          rw [isStep, isThrown] at notArmed atMostOne
          have isArmed := (@isArmed_setRetry manager call.workflowId call.workflowId (nextTimeout queued.lastTimeout)
            manager.nextTimer).mpr (Or.inl ⟨rfl, rfl⟩)
          constructor
          · cases removed : manager.removed call.workflowId with
            | false => rfl
            | true => exact absurd isArmed (notArmed removed)
          · intro timer armed
            obtain ⟨queued', isQueued, rfl⟩ := consistent.queued _ _ armed
            have earlier := consistent.earlier _ _ isQueued
            have stillArmed := (@isArmed_setRetry manager call.workflowId call.workflowId
              (nextTimeout queued.lastTimeout) queued'.timeout).mpr (Or.inr ⟨Nat.ne_of_lt earlier, armed⟩)
            exact Nat.ne_of_lt earlier (atMostOne _ _ stillArmed isArmed)
      | _ => trivial
    | removes index progress =>
      cases progress with
      | closes =>
        intro call isCall stage timer armed
        have completed : manager.step (.removes index .closes) = manager.completeRemove index call := by
          simp only [ActiveWorkflowManager.step, isCall, stage, ActiveWorkflowManager.removeProceeds]
        have isRemoved : (manager.completeRemove index call).removed call.workflowId = true :=
          Function.update_self _ _ _
        exact wins.notArmed call.workflowId timer (by rw [completed, isRemoved]) (by rw [completed]; exact armed)
      | _ => trivial
    | _ => trivial
  · intro inTime
    have kept := consistent.step inTime
    refine ⟨fun workflowId timer removed => kept.notArmed workflowId timer removed, ?_, ?_,
      fun workflowId first second => kept.atMostOne⟩
    · rintro workflowId removed ⟨index, call, triggerResponses, rfl, isCall, isRetry, stage, rfl⟩
      have notRemoved := inTime call isCall isRetry stage
      rw [removed] at notRemoved
      contradiction
    · intro workflowId removed unhandled
      obtain ⟨index, call, progress, rfl, isCall, ⟨rfl, isRetry, stage, -⟩, rfl⟩ := retryUnhandled_iff.mp unhandled
      have notRemoved := (inTime call isCall isRetry stage).1
      rw [removed] at notRemoved
      contradiction

end ActiveWorkflowManager

end N8n.Workflows
