import N8n.Concurrency.ActiveExecutions
import N8n.Library.Loop

/-! # Shutting down

`shutdown` of `active-executions.ts`: the concurrency control is
disabled before its queues are emptied.
-/

namespace N8n.Concurrency.ActiveExecutions

/-- `cancelMany` gets the executions with the status `new` that someone waits for a response from. -/
def removeAll (active : ActiveExecutions) : ActiveExecutions :=
  if !active.concurrencyControl.isEnabled then active
  else
    let emptied := active.after active.concurrencyControl.emptyQueues
    { emptied with
      canceled := emptied.canceled ++ (active.activeExecutions.entries.filter fun (_, execution) =>
        execution.status = .new && execution.responsePromise).map Prod.fst }

def disable (active : ActiveExecutions) : ActiveExecutions :=
  { active with concurrencyControl := active.concurrencyControl.disable }

/-- `shutdown` up to the loop that waits for the active executions.  `meanwhile` happens while `removeAll` is
awaited. -/
def shutdown (active : ActiveExecutions) (cancelAll : Bool) (meanwhile : List ExecutionEvent) : ActiveExecutions :=
  let executionIds := active.activeExecutions.keys
  let disabled := if active.executionsMode = .regular then active.disable else active
  if cancelAll then
    let removed := if active.executionsMode = .regular then disabled.removeAll else disabled
    executionIds.foldl settlePostExecutePromise (meanwhile.foldl step removed)
  else disabled

def WaitsInQueue (active : ActiveExecutions) (call : Promise) : Prop :=
  ∃ type queue, active.concurrencyControl.queues type = some queue ∧ call ∈ queue.queue.map QueueItem.resolve

def IsThrottled (active : ActiveExecutions) (call : Promise) : Prop :=
  ∃ (entry : Call) (executionId : ExecutionId), active.calls[call]? = some entry ∧ entry.stage = .throttled executionId

def QueuesEmpty (active : ActiveExecutions) : Prop :=
  ∀ type queue, active.concurrencyControl.queues type = some queue → queue.queue = []

/-- The execution has not begun, and someone waits for a response from it. -/
def CannotResume (active : ActiveExecutions) (executionId : ExecutionId) : Prop :=
  ∃ execution, active.activeExecutions.get? executionId = some execution ∧ execution.status = .new ∧
    execution.responsePromise = true

/-- What `shutdown(true)` is there for; anything may happen after it. -/
structure ShutsDown (active : ActiveExecutions) (meanwhile : List ExecutionEvent) : Prop where
  noneReleased : ∀ call, active.WaitsInQueue call → ∀ later : List ExecutionEvent,
    (later.foldl step (active.shutdown true meanwhile)).IsThrottled call
  noneLeft : (active.shutdown true meanwhile).QueuesEmpty
  canceled : ∀ executionId, active.CannotResume executionId →
    executionId ∈ (active.shutdown true meanwhile).canceled

/-! ## After the control is disabled -/

/-- Disabled, with these queues and these canceled executions, and these calls wait. -/
structure Stopped (before active : ActiveExecutions) : Prop where
  disabled : active.concurrencyControl.isEnabled = false
  queues : active.concurrencyControl.queues = before.concurrencyControl.queues
  canceled : active.canceled = before.canceled
  throttled : ∀ call, before.IsThrottled call → active.IsThrottled call

theorem limitedBy_disabled {service : ConcurrencyControlService} (disabled : service.isEnabled = false)
    (mode : WorkflowExecuteMode) : service.limitedBy mode = none := by
  simp [ConcurrencyControlService.limitedBy, disabled]

variable {call : Promise} {entry : Call}

theorem isThrottled_withStage {active : ActiveExecutions} {stage : Stage} (isCall : active.calls[call]? = some entry)
    (moves : ∀ executionId, entry.stage ≠ .throttled executionId) {other : Promise} (waits : active.IsThrottled other) :
    (active.withStage call stage).IsThrottled other := by
  obtain ⟨held, executionId, isOther, throttled⟩ := waits
  have different : other ≠ call := by
    rintro rfl
    obtain rfl := Option.some.inj (isCall.symm.trans isOther)
    exact moves executionId throttled
  exact ⟨held, executionId, by simp [withStage_calls, isOther, different], throttled⟩

variable {before active : ActiveExecutions}

theorem stopped_withStage (stopped : Stopped before active) {stage : Stage}
    (isCall : active.calls[call]? = some entry) (moves : ∀ executionId, entry.stage ≠ .throttled executionId) :
    Stopped before (active.withStage call stage) :=
  ⟨stopped.disabled, stopped.queues, stopped.canceled, fun other waits =>
    isThrottled_withStage isCall moves (stopped.throttled other waits)⟩

theorem stopped_begin (stopped : Stopped before active) (mode : WorkflowExecuteMode) :
    Stopped before (active.begin mode) := by
  refine ⟨stopped.disabled, stopped.queues, stopped.canceled, fun other waits => ?_⟩
  obtain ⟨entry, executionId, isCall, throttled⟩ := stopped.throttled other waits
  exact ⟨entry, executionId, calls_begin_of_some isCall, throttled⟩

theorem stopped_throttle {before active : ActiveExecutions} (stopped : Stopped before active) {call : Promise}
    {entry : Call} (isCall : active.calls[call]? = some entry)
    (moves : ∀ executionId, entry.stage ≠ .throttled executionId) (mode : WorkflowExecuteMode)
    (executionId : ExecutionId) : Stopped before (active.throttle call mode executionId) := by
  rw [throttle, if_pos (limitedBy_disabled stopped.disabled mode)]
  exact stopped_withStage stopped isCall moves

theorem stopped_register (stopped : Stopped before active) (isCall : active.calls[call]? = some entry)
    (moves : ∀ executionId, entry.stage ≠ .throttled executionId) (executionId : ExecutionId) :
    Stopped before (active.register call executionId) := by
  have staged : Stopped before (active.withStage call (.registered executionId)) :=
    stopped_withStage stopped isCall moves
  exact ⟨staged.disabled, staged.queues, staged.canceled, staged.throttled⟩

theorem stopped_settle (stopped : Stopped before active) (executionId : ExecutionId) :
    Stopped before (active.settlePostExecutePromise executionId) := by
  rcases settle_cases active executionId with same | ⟨call, entry, registered, _, isCall, stage, next⟩
  · rw [same]
    exact stopped
  · rw [next]
    exact stopped_withStage stopped isCall (by simp [stage])

theorem stopped_updateExecution (stopped : Stopped before active) (executionId : ExecutionId)
    (change : IExecutingWorkflowData → IExecutingWorkflowData) :
    Stopped before (active.updateExecution executionId change) := by
  unfold updateExecution
  split
  · exact stopped
  · exact ⟨stopped.disabled, stopped.queues, stopped.canceled, stopped.throttled⟩

theorem stopped_onQueue (stopped : Stopped before active) (mode : WorkflowExecuteMode)
    (operation : ConcurrencyQueue → ConcurrencyQueue × List Effect) :
    active.after (active.concurrencyControl.onQueue mode operation) = active := by
  rw [ConcurrencyControlService.onQueue_unlimited (limitedBy_disabled stopped.disabled mode)]
  rfl

theorem stopped_finish (stopped : Stopped before active) {executionId : ExecutionId}
    (isCall : active.calls[call]? = some entry) (settled : entry.stage = .settled executionId) :
    Stopped before (active.finish call entry.executionMode executionId) := by
  have released : active.after (active.concurrencyControl.release entry.executionMode) = active :=
    stopped_onQueue stopped entry.executionMode _
  refine ⟨?_, ?_, ?_, fun other waits => ?_⟩
  · simpa only [finish, released] using stopped.disabled
  · simpa only [finish, released] using stopped.queues
  · simpa only [finish, released] using stopped.canceled
  · obtain ⟨held, executionId', isOther, throttled⟩ := stopped.throttled other waits
    have different : other ≠ call := by
      rintro rfl
      obtain rfl := Option.some.inj (isCall.symm.trans isOther)
      rw [settled] at throttled
      cases throttled
    exact ⟨held, executionId', by rw [finish_calls, released, isOther]; simp [different], throttled⟩

/-- Nothing that happens after the control is disabled lets a throttled execution through, or empties a queue. -/
theorem stopped_step (stopped : Stopped before active) (event : ExecutionEvent) :
    Stopped before (active.step event) := by
  have does := step_does active event
  generalize active.step event = next at does ⊢
  cases does with
  | nothing => exact stopped
  | begin mode => exact stopped_begin stopped mode
  | beginThrottled mode executionId =>
    exact @stopped_throttle _ (active.begin mode) (stopped_begin stopped mode) active.calls.length
      { executionMode := mode, stage := .creating, slots := 0, releases := 0 } (by simp [begin]) (by simp) mode
      executionId
  | creationThrows isCall stage => exact stopped_withStage stopped isCall (by simp [stage])
  | throttle isCall stage => exact stopped_throttle stopped isCall (by simp [stage]) _ _
  | registerNew isCall stage => exact stopped_register stopped isCall (by simp [stage]) _
  | savingThrows isCall stage => exact stopped_withStage stopped isCall (by simp [stage])
  | register isCall stage => exact stopped_register stopped isCall (by simp [stage]) _
  | stop executionId => exact stopped_settle stopped executionId
  | finalize executionId => exact stopped_settle stopped executionId
  | finish isCall stage => exact stopped_finish stopped isCall stage
  | remove mode executionId =>
    rw [stopped_onQueue stopped]
    exact stopped
  | setStatus executionId status => exact stopped_updateExecution stopped executionId _
  | attachResponsePromise executionId => exact stopped_updateExecution stopped executionId _

theorem stopped_run (stopped : Stopped before active) (events : List ExecutionEvent) :
    Stopped before (events.foldl step active) :=
  Loop.foldl_preserves (Stopped before) (fun event _ _ stopped => stopped_step stopped event) stopped

theorem stopped_shutdown {active : ActiveExecutions} (regular : active.executionsMode = .regular)
    (meanwhile : List ExecutionEvent) : Stopped active (active.shutdown true meanwhile) := by
  have disabled : Stopped active active.disable := ⟨rfl, rfl, rfl, fun _ waits => waits⟩
  -- `removeAll` finds the control disabled and returns
  have same : active.disable.removeAll = active.disable := by
    simp [removeAll, disable, ConcurrencyControlService.disable]
  have stops : Stopped active
      (active.activeExecutions.keys.foldl settlePostExecutePromise (meanwhile.foldl step active.disable)) :=
    Loop.foldl_preserves (Stopped active) (fun executionId _ _ stopped => stopped_settle stopped executionId)
      (stopped_run disabled meanwhile)
  simpa only [shutdown, regular, if_true, same] using stops

/-! ## What is left undone -/

theorem step_canceled (active : ActiveExecutions) (event : ExecutionEvent) :
    (active.step event).canceled = active.canceled ∧ (active.step event).executionsMode = active.executionsMode := by
  have throttled : ∀ (active : ActiveExecutions) call mode executionId,
      (active.throttle call mode executionId).canceled = active.canceled ∧
        (active.throttle call mode executionId).executionsMode = active.executionsMode := by
    intro active call mode executionId
    unfold throttle
    split <;> exact ⟨rfl, rfl⟩
  have settled : ∀ executionId, (active.settlePostExecutePromise executionId).canceled = active.canceled ∧
      (active.settlePostExecutePromise executionId).executionsMode = active.executionsMode := by
    intro executionId
    rcases settle_cases active executionId with same | ⟨call, _, _, _, _, _, next⟩
    · rw [same]
      exact ⟨rfl, rfl⟩
    · rw [next]
      exact ⟨rfl, rfl⟩
  have updated : ∀ executionId change, (active.updateExecution executionId change).canceled = active.canceled ∧
      (active.updateExecution executionId change).executionsMode = active.executionsMode := by
    intro executionId change
    unfold updateExecution
    split <;> exact ⟨rfl, rfl⟩
  have does := step_does active event
  generalize active.step event = next at does ⊢
  cases does with
  | beginThrottled mode executionId => exact throttled (active.begin mode) _ _ _
  | throttle => exact throttled active _ _ _
  | stop executionId => exact settled executionId
  | finalize executionId => exact settled executionId
  | setStatus executionId status => exact updated executionId _
  | attachResponsePromise executionId => exact updated executionId _
  | _ => exact ⟨rfl, rfl⟩

theorem reached {productionLimit evaluationLimit : Int} {executionsMode : ExecutionsMode}
    {service : ConcurrencyControlService}
    (created : ConcurrencyControlService.create productionLimit evaluationLimit executionsMode = .ok service)
    (events : List ExecutionEvent) :
    (events.foldl step (start executionsMode service)).Consistent ∧
      (events.foldl step (start executionsMode service)).canceled = [] ∧
      (events.foldl step (start executionsMode service)).executionsMode = executionsMode := by
  refine Loop.foldl_preserves (fun active : ActiveExecutions =>
      active.Consistent ∧ active.canceled = [] ∧ active.executionsMode = executionsMode)
    (fun event _ active kept => ⟨consistent_step kept.1 event, ?_⟩) ⟨consistent_start created, rfl, rfl⟩
  rw [(step_canceled active event).1, (step_canceled active event).2]
  exact kept.2

theorem none_released {active : ActiveExecutions} (consistent : active.Consistent)
    (regular : active.executionsMode = .regular) (meanwhile : List ExecutionEvent) (call : Promise)
    (waits : active.WaitsInQueue call) (later : List ExecutionEvent) :
    (later.foldl step (active.shutdown true meanwhile)).IsThrottled call := by
  obtain ⟨type, queue, isQueue, member⟩ := waits
  obtain ⟨item, isItem, rfl⟩ := List.mem_map.mp member
  obtain ⟨entry, isCall, throttled, _⟩ := consistent.waiting type queue isQueue item isItem
  have stopped := stopped_run (stopped_shutdown regular meanwhile) later
  exact stopped.throttled item.resolve ⟨entry, item.executionId, isCall, throttled⟩

/-- The shutdown does its work exactly when there is none: nobody waits, and nothing has to be cancelled. -/
theorem shutsDown_iff (productionLimit evaluationLimit : Int) (service : ConcurrencyControlService)
    (created : ConcurrencyControlService.create productionLimit evaluationLimit .regular = .ok service)
    (events meanwhile : List ExecutionEvent) :
    (events.foldl step (start .regular service)).ShutsDown meanwhile ↔
      (events.foldl step (start .regular service)).QueuesEmpty ∧
        ∀ executionId, ¬ (events.foldl step (start .regular service)).CannotResume executionId := by
  obtain ⟨consistent, noneCanceled, regular⟩ := reached created events
  generalize List.foldl step (start .regular service) events = active at consistent noneCanceled regular ⊢
  have stopped := stopped_shutdown regular meanwhile
  constructor
  · rintro ⟨_, noneLeft, canceled⟩
    refine ⟨fun type queue isQueue => noneLeft type queue (by rw [stopped.queues]; exact isQueue),
      fun executionId cannotResume => ?_⟩
    have listed := canceled executionId cannotResume
    rw [stopped.canceled, noneCanceled] at listed
    cases listed
  · rintro ⟨empty, noneToCancel⟩
    refine ⟨none_released consistent regular meanwhile, fun type queue isQueue => ?_,
      fun executionId cannotResume => absurd cannotResume (noneToCancel executionId)⟩
    rw [stopped.queues] at isQueue
    exact empty type queue isQueue

/-- Whatever the control has done before and whatever happens during and after the shutdown: who waits, waits on. -/
theorem shutdown_releases_none (productionLimit evaluationLimit : Int) (service : ConcurrencyControlService)
    (created : ConcurrencyControlService.create productionLimit evaluationLimit .regular = .ok service)
    (events meanwhile later : List ExecutionEvent) (call : Promise)
    (waits : (events.foldl step (start .regular service)).WaitsInQueue call) :
    (later.foldl step ((events.foldl step (start .regular service)).shutdown true meanwhile)).IsThrottled call := by
  obtain ⟨consistent, _, regular⟩ := reached created events
  exact none_released consistent regular meanwhile call waits later

/-! One execution runs; a second one waits for it. -/

theorem second_not_released :
    (List.foldl step ((List.foldl step (start .regular (limitedTo 1))
      [.add .webhook none, .created 0 (some "1"), .saved 0 true, .add .webhook none,
        .created 1 (some "2")]).shutdown true []) [.finalizeExecution "1"]).IsThrottled 1 :=
  shutdown_releases_none 1 (-1) (limitedTo 1) rfl _ [] _ 1 ⟨.production, _, rfl, by decide⟩

theorem running_shutsDown :
    (List.foldl step (start .regular (limitedTo 1))
      [.add .webhook none, .created 0 (some "1"), .saved 0 true]).ShutsDown [.finalizeExecution "1"] := by
  refine (shutsDown_iff 1 (-1) (limitedTo 1) rfl _ _).mpr ⟨fun type queue isQueue => ?_, ?_⟩
  · cases type with
    | production =>
      obtain rfl : ({ capacity := 0, queue := [] } : ConcurrencyQueue) = queue := Option.some.inj isQueue
      rfl
    | evaluation => cases isQueue
  · rintro executionId ⟨execution, isExecution, new, _⟩
    have member := OrderedMap.mem_values.mpr ⟨executionId, OrderedMap.get?_eq_some.mp isExecution⟩
    obtain rfl : execution = { postExecutePromise := 0, responsePromise := false, status := .running } :=
      List.mem_singleton.mp member
    cases new

theorem throttled_not_shutsDown :
    ConcurrencyControlService.create 1 (-1) .regular = .ok (limitedTo 1) ∧
      ¬ (List.foldl step (start .regular (limitedTo 1))
        [.add .webhook none, .created 0 (some "1"), .saved 0 true, .add .webhook none,
          .created 1 (some "2")]).ShutsDown [] := by
  refine ⟨rfl, ?_⟩
  rintro ⟨_, noneLeft, _⟩
  have empty := noneLeft .production { capacity := -1, queue := [⟨"2", 1⟩] } (by decide)
  cases empty

end N8n.Concurrency.ActiveExecutions
