import N8n.Concurrency.ConcurrencyControlService
import N8n.Library.Numbered

/-! # Active executions

`packages/cli/src/active-executions.ts`.  The calls of `add` run side by side:
a call stops at every `await`, and the calls are numbered in their order.  A
slot is what a call takes when a queue lets it through.
-/

namespace N8n.Concurrency

/-- Where a call of `add` stands, and its execution after that. -/
inductive Stage where
  /-- `createNewExecution` is awaited. -/
  | creating
  /-- `throttle` is awaited. -/
  | throttled (executionId : ExecutionId)
  /-- `setRunning` or `updateExistingExecution` is awaited. -/
  | saving (executionId : ExecutionId)
  /-- The execution was entered in `activeExecutions`. -/
  | registered (executionId : ExecutionId)
  /-- The promise has settled; `finally` has not run yet. -/
  | settled (executionId : ExecutionId)
  | finished
  | threw
deriving DecidableEq, Repr

/-- A call of `add`, with the slots it took and gave back. -/
structure Call where
  executionMode : WorkflowExecuteMode
  stage : Stage
  slots : Nat
  releases : Nat
deriving DecidableEq, Repr

inductive ExecutionStatus where
  | canceled
  | crashed
  | error
  | new
  | running
  | success
  | unknown
  | waiting
deriving DecidableEq, Repr

structure IExecutingWorkflowData where
  /-- The call whose promise it is. -/
  postExecutePromise : Promise
  /-- Whether someone waits for a response. -/
  responsePromise : Bool
  status : ExecutionStatus
deriving DecidableEq, Repr

structure ActiveExecutions where
  executionsMode : ExecutionsMode
  concurrencyControl : ConcurrencyControlService
  activeExecutions : OrderedMap ExecutionId IExecutingWorkflowData
  calls : List Call
  /-- The executions that were set to `canceled` in the database. -/
  canceled : List ExecutionId

/-- What happens next: a call begins, an awaited promise settles, or one of the other methods is called. -/
inductive ExecutionEvent where
  | add (executionMode : WorkflowExecuteMode) (executionId : Option ExecutionId)
  /-- `createNewExecution` returns the id, or throws. -/
  | created (call : Promise) (executionId : Option ExecutionId)
  /-- `setRunning` or `updateExistingExecution` returns, or throws. -/
  | saved (call : Promise) (succeeds : Bool)
  | stopExecution (executionId : ExecutionId)
  | finalizeExecution (executionId : ExecutionId)
  /-- The handler of a promise that has settled. -/
  | finally (call : Promise)
  /-- An execution is stopped before it ran. -/
  | remove (mode : WorkflowExecuteMode) (executionId : ExecutionId)
  | setStatus (executionId : ExecutionId) (status : ExecutionStatus)
  | attachResponsePromise (executionId : ExecutionId)
deriving DecidableEq, Repr

/-- The promise of `enqueue` has resolved, and `throttle` returns with a slot. -/
def Call.letThrough (call : Call) : Call :=
  match call.stage with
  | .throttled executionId => { call with stage := .saving executionId, slots := call.slots + 1 }
  | _ => call

namespace ActiveExecutions

def start (executionsMode : ExecutionsMode) (concurrencyControl : ConcurrencyControlService) : ActiveExecutions :=
  { executionsMode, concurrencyControl, activeExecutions := ∅, calls := [], canceled := [] }

def has (active : ActiveExecutions) (executionId : ExecutionId) : Bool := active.activeExecutions.has executionId

def withStage (active : ActiveExecutions) (call : Promise) (stage : Stage) : ActiveExecutions :=
  { active with calls := active.calls.modify call fun entry => { entry with stage } }

/-- The queues have changed, and the calls that were let through go on. -/
def after (active : ActiveExecutions) (outcome : ConcurrencyControlService × List Effect) : ActiveExecutions :=
  { active with
    concurrencyControl := outcome.1
    calls := (resolvedPromises outcome.2).foldl (fun calls call => calls.modify call Call.letThrough) active.calls }

/-- `throttle` returns at once when no queue limits the mode. -/
def throttle (active : ActiveExecutions) (call : Promise) (mode : WorkflowExecuteMode) (executionId : ExecutionId) :
    ActiveExecutions :=
  if active.concurrencyControl.limitedBy mode = none then active.withStage call (.saving executionId)
  else (active.withStage call (.throttled executionId)).after
    (active.concurrencyControl.throttle mode executionId call)

/-- The last part of `add`, from the new promise on. -/
def register (active : ActiveExecutions) (call : Promise) (executionId : ExecutionId) : ActiveExecutions :=
  { active with
    activeExecutions := active.activeExecutions.set executionId
      { postExecutePromise := call, responsePromise := false, status := .running } }.withStage call
    (.registered executionId)

/-- Only the first call settles a promise. -/
def settlePostExecutePromise (active : ActiveExecutions) (executionId : ExecutionId) : ActiveExecutions :=
  match active.activeExecutions.get? executionId with
  | none => active
  | some execution =>
    match active.calls[execution.postExecutePromise]? with
    | none => active
    | some entry =>
      match entry.stage with
      | .registered _ => active.withStage execution.postExecutePromise (.settled executionId)
      | _ => active

/-- The handler at the end of `add`: the slot is given back, and the entry of the execution is deleted. -/
def finish (active : ActiveExecutions) (call : Promise) (mode : WorkflowExecuteMode) (executionId : ExecutionId) :
    ActiveExecutions :=
  let released := active.after (active.concurrencyControl.release mode)
  { released with
    activeExecutions := active.activeExecutions.erase executionId
    calls := released.calls.modify call fun entry =>
      { entry with stage := .finished, releases := entry.releases + active.concurrencyControl.slotOf mode } }

def updateExecution (active : ActiveExecutions) (executionId : ExecutionId)
    (change : IExecutingWorkflowData → IExecutingWorkflowData) : ActiveExecutions :=
  match active.activeExecutions.get? executionId with
  | none => active
  | some execution => { active with activeExecutions := active.activeExecutions.set executionId (change execution) }

def step (active : ActiveExecutions) : ExecutionEvent → ActiveExecutions
  | .add mode executionId =>
    let begun := { active with
      calls := active.calls ++ [{ executionMode := mode, stage := .creating, slots := 0, releases := 0 }] }
    match executionId with
    | none => begun
    | some executionId => begun.throttle active.calls.length mode executionId
  | .created call result =>
    match active.calls[call]? with
    | none => active
    | some entry =>
      match entry.stage, result with
      | .creating, none => active.withStage call .threw
      | .creating, some executionId =>
        if executionId = "" then active.withStage call .threw
        else if active.executionsMode = .regular then active.throttle call entry.executionMode executionId
        else active.register call executionId
      | _, _ => active
  | .saved call succeeds =>
    match active.calls[call]? with
    | none => active
    | some entry =>
      match entry.stage with
      | .saving executionId => if succeeds then active.register call executionId else active.withStage call .threw
      | _ => active
  | .stopExecution executionId => active.settlePostExecutePromise executionId
  | .finalizeExecution executionId => active.settlePostExecutePromise executionId
  | .finally call =>
    match active.calls[call]? with
    | none => active
    | some entry =>
      match entry.stage with
      | .settled executionId => active.finish call entry.executionMode executionId
      | _ => active
  | .remove mode executionId => active.after (active.concurrencyControl.remove mode executionId)
  | .setStatus executionId status => active.updateExecution executionId fun execution => { execution with status }
  | .attachResponsePromise executionId =>
    active.updateExecution executionId fun execution => { execution with responsePromise := true }

/-- The call whose entry the execution has in `activeExecutions`. -/
def holder (active : ActiveExecutions) (executionId : ExecutionId) : Option Promise :=
  (active.activeExecutions.get? executionId).map IExecutingWorkflowData.postExecutePromise

/-- The call threw, or its entry is gone and no handler is left to run. -/
def Over (active : ActiveExecutions) (call : Promise) (entry : Call) : Prop :=
  match entry.stage with
  | .threw | .finished => True
  | .registered executionId => active.holder executionId ≠ some call
  | _ => False

/-- Every slot is given back once, when the execution is over and not before. -/
structure SlotsGivenBack (active : ActiveExecutions) : Prop where
  once : ∀ (call : Promise) (entry : Call), active.calls[call]? = some entry → active.Over call entry →
    entry.releases = entry.slots
  notBefore : ∀ (call : Promise) (entry : Call), active.calls[call]? = some entry → ¬ active.Over call entry →
    entry.releases = 0
  atMostOne : ∀ (call : Promise) (entry : Call), active.calls[call]? = some entry → entry.slots ≤ 1

/-- No entry of the execution is that of a call that holds a slot and has not settled. -/
def Unheld (active : ActiveExecutions) (executionId : ExecutionId) : Prop :=
  ∀ (call : Promise) (entry : Call), active.holder executionId = some call → active.calls[call]? = some entry →
    entry.stage = .registered executionId → entry.slots = 0

/-- No query throws after a slot was taken, and no entry that still needs its slot is overwritten or deleted. -/
def KeepsSlots (active : ActiveExecutions) : ExecutionEvent → Prop
  | .created call (some executionId) =>
    ∀ entry : Call, active.calls[call]? = some entry → entry.stage = .creating → executionId ≠ "" →
      active.executionsMode = .queue → active.Unheld executionId
  | .saved call false =>
    ∀ (entry : Call) executionId, active.calls[call]? = some entry → entry.stage = .saving executionId → entry.slots = 0
  | .saved call true =>
    ∀ (entry : Call) executionId, active.calls[call]? = some entry → entry.stage = .saving executionId →
      active.Unheld executionId
  | .finally call =>
    ∀ (entry : Call) executionId, active.calls[call]? = some entry → entry.stage = .settled executionId →
      active.Unheld executionId
  | _ => True

/-! ## The calls after each part of a step -/

@[simp] theorem Call.letThrough_letThrough (entry : Call) : entry.letThrough.letThrough = entry.letThrough := by
  obtain ⟨mode, stage, slots, releases⟩ := entry
  cases stage <;> rfl

variable {entry : Call}

theorem letThrough_of_not_throttled (moves : ∀ executionId, entry.stage ≠ .throttled executionId) :
    entry.letThrough = entry := by
  obtain ⟨mode, stage, slots, releases⟩ := entry
  cases stage with
  | throttled executionId => exact absurd rfl (moves executionId)
  | _ => rfl

theorem withStage_calls (active : ActiveExecutions) (call other : Promise) (stage : Stage) :
    (active.withStage call stage).calls[other]? =
      active.calls[other]?.map fun entry => if other = call then { entry with stage } else entry := by
  simp only [withStage, List.getElem?_modify, Option.map_eq_map, eq_comm (a := call)]

@[simp] theorem withStage_concurrencyControl (active : ActiveExecutions) (call : Promise) (stage : Stage) :
    (active.withStage call stage).concurrencyControl = active.concurrencyControl := rfl

@[simp] theorem withStage_holder (active : ActiveExecutions) (call : Promise) (stage : Stage)
    (executionId : ExecutionId) : (active.withStage call stage).holder executionId = active.holder executionId := rfl

@[simp] theorem after_holder (active : ActiveExecutions) (outcome : ConcurrencyControlService × List Effect)
    (executionId : ExecutionId) : (active.after outcome).holder executionId = active.holder executionId := rfl

@[simp] theorem after_concurrencyControl (active : ActiveExecutions)
    (outcome : ConcurrencyControlService × List Effect) : (active.after outcome).concurrencyControl = outcome.1 := rfl

theorem after_calls (active : ActiveExecutions) (outcome : ConcurrencyControlService × List Effect)
    (other : Promise) : (active.after outcome).calls[other]? =
      active.calls[other]?.map fun entry => if other ∈ resolvedPromises outcome.2 then entry.letThrough else entry :=
  Numbered.foldl_modify Call.letThrough_letThrough _ _ _

/-! ## What every step keeps -/

def Counted (service : ConcurrencyControlService) (entry : Call) : Prop :=
  match entry.stage with
  | .creating | .throttled _ => entry.slots = 0 ∧ entry.releases = 0
  | .saving _ | .registered _ | .settled _ =>
    entry.slots = service.slotOf entry.executionMode ∧ entry.releases = 0
  | .finished => entry.slots = service.slotOf entry.executionMode ∧ entry.releases = entry.slots
  | .threw => entry.slots ≤ service.slotOf entry.executionMode ∧ entry.releases = 0

/-- Who waits in a queue is throttled by it, and an entry of `activeExecutions` is that of a call that is there. -/
structure Consistent (active : ActiveExecutions) : Prop where
  enabled : active.concurrencyControl.isEnabled = true → active.executionsMode = .regular
  waiting : ∀ type queue, active.concurrencyControl.queues type = some queue → ∀ item ∈ queue.queue,
    ∃ entry : Call, active.calls[item.resolve]? = some entry ∧ entry.stage = .throttled item.executionId ∧
      active.concurrencyControl.limitedBy entry.executionMode = some type
  once : ∀ type queue, active.concurrencyControl.queues type = some queue →
    (queue.queue.map QueueItem.resolve).Nodup
  counted : ∀ (call : Promise) (entry : Call), active.calls[call]? = some entry →
    Counted active.concurrencyControl entry
  entries : ∀ executionId (call : Promise), active.holder executionId = some call →
    ∃ entry : Call, active.calls[call]? = some entry ∧
      (entry.stage = .registered executionId ∨ entry.stage = .settled executionId)

/-- A slot that nobody will give back. -/
def Lost (active : ActiveExecutions) (call : Promise) (entry : Call) : Prop :=
  entry.slots ≠ 0 ∧ (entry.stage = .threw ∨
    ∃ executionId, entry.stage = .registered executionId ∧ active.holder executionId ≠ some call)

def NoneLost (active : ActiveExecutions) : Prop :=
  ∀ (call : Promise) (entry : Call), active.calls[call]? = some entry → ¬ active.Lost call entry

theorem slotOf_le (service : ConcurrencyControlService) (mode : WorkflowExecuteMode) : service.slotOf mode ≤ 1 := by
  unfold ConcurrencyControlService.slotOf
  split
  · exact Nat.zero_le 1
  · exact Nat.le_refl 1

variable {active : ActiveExecutions}

theorem slotsGivenBack_iff (consistent : active.Consistent) :
    active.SlotsGivenBack ↔ active.NoneLost := by
  constructor
  · rintro ⟨once, _, _⟩ call entry isCall ⟨holds, threw | ⟨executionId, registered, gone⟩⟩
    · have counted := consistent.counted call entry isCall
      have back := once call entry isCall (by simp [Over, threw])
      simp only [Counted, threw] at counted
      omega
    · have counted := consistent.counted call entry isCall
      have back := once call entry isCall (by simpa [Over, registered] using gone)
      simp only [Counted, registered] at counted
      omega
  · intro noneLost
    refine ⟨fun call entry isCall isOver => ?_, fun call entry isCall notOver => ?_, fun call entry isCall => ?_⟩
    · have counted := consistent.counted call entry isCall
      have notLost := noneLost call entry isCall
      cases stage : entry.stage with
      | threw =>
        simp only [Counted, stage] at counted
        have none : entry.slots = 0 := by
          by_contra holds
          exact notLost ⟨holds, .inl stage⟩
        omega
      | finished =>
        simp only [Counted, stage] at counted
        exact counted.2
      | registered executionId =>
        simp only [Counted, stage] at counted
        simp only [Over, stage] at isOver
        have none : entry.slots = 0 := by
          by_contra holds
          exact notLost ⟨holds, .inr ⟨executionId, stage, isOver⟩⟩
        omega
      | _ => simp [Over, stage] at isOver
    · have counted := consistent.counted call entry isCall
      cases stage : entry.stage with
      | threw => simp [Over, stage] at notOver
      | finished => simp [Over, stage] at notOver
      | _ =>
        simp only [Counted, stage] at counted
        exact counted.2
    · have counted := consistent.counted call entry isCall
      have atMost := slotOf_le active.concurrencyControl entry.executionMode
      cases stage : entry.stage with
      | _ =>
        simp only [Counted, stage] at counted
        omega

variable {call : Promise}

theorem consistent_withStage (consistent : active.Consistent) (stage : Stage)
    (isCall : active.calls[call]? = some entry) (moves : ∀ executionId, entry.stage ≠ .throttled executionId)
    (counted : Counted active.concurrencyControl { entry with stage })
    (stays : ∀ executionId, active.holder executionId = some call →
      stage = .registered executionId ∨ stage = .settled executionId) :
    (active.withStage call stage).Consistent := by
  refine ⟨consistent.enabled, fun type queue isQueue item member => ?_, consistent.once,
    fun other found isOther => ?_, fun executionId other holds => ?_⟩
  · obtain ⟨waits, isWaiting, throttled, limited⟩ := consistent.waiting type queue isQueue item member
    have different : item.resolve ≠ call := by
      intro same
      rw [same, isCall] at isWaiting
      obtain rfl := Option.some.inj isWaiting
      exact moves _ throttled
    exact ⟨waits, by simp [withStage_calls, isWaiting, different], throttled, limited⟩
  · rw [withStage_calls] at isOther
    obtain ⟨before, isBefore, rfl⟩ := Option.map_eq_some_iff.mp isOther
    by_cases same : other = call
    · subst same
      obtain rfl := Option.some.inj (isCall.symm.trans isBefore)
      simpa using counted
    · simpa [same] using consistent.counted other before isBefore
  · obtain ⟨before, isBefore, either⟩ := consistent.entries executionId other holds
    by_cases same : other = call
    · subst same
      exact ⟨{ before with stage }, by simp [withStage_calls, isBefore], stays executionId holds⟩
    · exact ⟨before, by simp [withStage_calls, isBefore, same], either⟩

theorem counted_of_limits {service service' : ConcurrencyControlService}
    (same : ∀ mode, service'.limitedBy mode = service.limitedBy mode) (counted : Counted service entry) :
    Counted service' entry := by
  have slots : service'.slotOf entry.executionMode = service.slotOf entry.executionMode := by
    simp only [ConcurrencyControlService.slotOf, same]
  unfold Counted at counted ⊢
  rw [slots]
  exact counted

theorem counted_letThrough {service : ConcurrencyControlService} (counted : Counted service entry)
    (limited : ∀ executionId, entry.stage = .throttled executionId → service.limitedBy entry.executionMode ≠ none) :
    Counted service entry.letThrough := by
  obtain ⟨mode, stage, slots, releases⟩ := entry
  cases stage with
  | throttled executionId =>
    obtain ⟨noSlot, noRelease⟩ := counted
    obtain rfl : slots = 0 := noSlot
    have isLimited : service.limitedBy mode ≠ none := limited executionId rfl
    exact ⟨by simp [Call.letThrough, ConcurrencyControlService.slotOf, isLimited], noRelease⟩
  | _ => exact counted

/-- What a queue does to the items in it when it only lets executions through. -/
def Serves (operation : ConcurrencyQueue → ConcurrencyQueue × List Effect) : Prop :=
  ∀ queue, ∃ served : List QueueItem, resolvedPromises (operation queue).2 = served.map QueueItem.resolve ∧
    (served ++ (operation queue).1.queue).Sublist queue.queue

theorem consistent_serves (consistent : active.Consistent)
    {operation : ConcurrencyQueue → ConcurrencyQueue × List Effect} (serves : Serves operation)
    (mode : WorkflowExecuteMode) : (active.after (active.concurrencyControl.onQueue mode operation)).Consistent := by
  cases isLimited : active.concurrencyControl.limitedBy mode with
  | none =>
    rw [ConcurrencyControlService.onQueue_unlimited isLimited]
    exact consistent
  | some type =>
    obtain ⟨_, _, queue, isQueue⟩ := ConcurrencyControlService.limitedBy_some isLimited
    obtain ⟨served, resolved, inside⟩ := serves queue
    have limits := fun mode' => active.concurrencyControl.limitedBy_onQueue mode mode' operation
    rw [ConcurrencyControlService.onQueue_limited isLimited isQueue] at limits ⊢
    have distinct := (consistent.once type queue isQueue).sublist (inside.map QueueItem.resolve)
    rw [List.map_append, List.nodup_append] at distinct
    refine ⟨consistent.enabled, fun other queue' isQueue' item member => ?_, fun other queue' isQueue' => ?_,
      fun call entry isCall => ?_, fun executionId call holds => ?_⟩
    · -- an item of a queue was there before and was not served
      have before : ∃ queue'', active.concurrencyControl.queues other = some queue'' ∧ item ∈ queue''.queue ∧
          item.resolve ∉ served.map QueueItem.resolve := by
        by_cases same : other = type
        · subst same
          obtain rfl : (operation queue).1 = queue' := by
            simpa [after, ConcurrencyControlService.updateQueue] using isQueue'
          exact ⟨queue, isQueue, inside.subset (List.mem_append_right _ member), fun again =>
            distinct.2.2 _ again _ (List.mem_map_of_mem member) rfl⟩
        · have isBefore : active.concurrencyControl.queues other = some queue' := by
            simpa [after, ConcurrencyControlService.updateQueue, same] using isQueue'
          refine ⟨queue', isBefore, member, fun again => ?_⟩
          obtain ⟨item', member', equal⟩ := List.mem_map.mp again
          obtain ⟨entry, isCall, _, limited⟩ := consistent.waiting other queue' isBefore item member
          obtain ⟨entry', isCall', _, limited'⟩ :=
            consistent.waiting type queue isQueue item' (inside.subset (List.mem_append_left _ member'))
          rw [equal, isCall] at isCall'
          obtain rfl := Option.some.inj isCall'
          exact same (Option.some.inj (limited.symm.trans limited'))
      obtain ⟨queue'', isBefore, member', notServed⟩ := before
      obtain ⟨entry, isCall, throttled, limited⟩ := consistent.waiting other queue'' isBefore item member'
      refine ⟨entry, ?_, throttled, (limits entry.executionMode).trans limited⟩
      rw [after_calls, isCall, resolved]
      simp only [notServed, if_false, Option.map_some]
    · by_cases same : other = type
      · subst same
        obtain rfl : (operation queue).1 = queue' := by
          simpa [after, ConcurrencyControlService.updateQueue] using isQueue'
        exact distinct.2.1
      · refine consistent.once other queue' ?_
        simpa [after, ConcurrencyControlService.updateQueue, same] using isQueue'
    · rw [after_calls] at isCall
      obtain ⟨before, isBefore, rfl⟩ := Option.map_eq_some_iff.mp isCall
      refine counted_of_limits limits ?_
      split
      · rename_i letThrough
        refine counted_letThrough (consistent.counted call before isBefore) fun executionId _ => ?_
        rw [resolved] at letThrough
        obtain ⟨item, member, rfl⟩ := List.mem_map.mp letThrough
        obtain ⟨entry, isEntry, _, limited⟩ :=
          consistent.waiting type queue isQueue item (inside.subset (List.mem_append_left _ member))
        obtain rfl := Option.some.inj (isBefore.symm.trans isEntry)
        simp [limited]
      · exact consistent.counted call before isBefore
    · obtain ⟨entry, isCall, either⟩ := consistent.entries executionId call holds
      refine ⟨entry, ?_, either⟩
      have still : entry.letThrough = entry := by
        apply letThrough_of_not_throttled
        intro executionId' throttled
        rcases either with stage | stage <;> rw [stage] at throttled <;> cases throttled
      simp [after_calls, isCall, still]

/-- A call that has just been throttled goes to the end of its queue, or on with a slot. -/
theorem consistent_enqueue {active : ActiveExecutions} (consistent : active.Consistent) {call : Promise} {entry : Call}
    {executionId : ExecutionId} (isCall : active.calls[call]? = some entry)
    (throttled : entry.stage = .throttled executionId)
    (isLimited : active.concurrencyControl.limitedBy entry.executionMode ≠ none)
    (arrives : ∀ type queue, active.concurrencyControl.queues type = some queue →
      ∀ item ∈ queue.queue, item.resolve ≠ call) :
    (active.after (active.concurrencyControl.throttle entry.executionMode executionId call)).Consistent := by
  obtain ⟨type, limited⟩ := Option.ne_none_iff_exists'.mp isLimited
  obtain ⟨_, _, queue, isQueue⟩ := ConcurrencyControlService.limitedBy_some limited
  have limits := fun mode' => active.concurrencyControl.limitedBy_onQueue entry.executionMode mode'
    fun queue => queue.enqueue executionId call
  simp only [ConcurrencyControlService.throttle]
  rw [ConcurrencyControlService.onQueue_limited limited isQueue] at limits ⊢
  have cases := queue.enqueue_cases executionId call
  refine ⟨consistent.enabled, fun other queue' isQueue' item member => ?_, fun other queue' isQueue' => ?_,
    fun other found isOther => ?_, fun executionId' other holds => ?_⟩
  · -- a waiting item is the new one, or it was there and is not the call that goes on
    by_cases same : other = type
    · subst same
      obtain rfl : (queue.enqueue executionId call).1 = queue' := by
        simpa [ConcurrencyControlService.updateQueue] using isQueue'
      rcases cases with ⟨waits, resolved⟩ | ⟨passes, resolved⟩
      · rw [waits, List.mem_append, List.mem_singleton] at member
        rcases member with member | rfl
        · obtain ⟨before, isBefore, stage, mode⟩ := consistent.waiting other queue isQueue item member
          exact ⟨before, by simp [after_calls, resolved, isBefore], stage, (limits _).trans mode⟩
        · exact ⟨entry, by simp [after_calls, resolved, isCall], throttled, (limits _).trans limited⟩
      · rw [passes] at member
        obtain ⟨before, isBefore, stage, mode⟩ := consistent.waiting other queue isQueue item member
        have different := arrives other queue isQueue item member
        exact ⟨before, by simp [after_calls, resolved, isBefore, different], stage, (limits _).trans mode⟩
    · have isBefore : active.concurrencyControl.queues other = some queue' := by
        simpa [ConcurrencyControlService.updateQueue, same] using isQueue'
      obtain ⟨before, isEntry, stage, mode⟩ := consistent.waiting other queue' isBefore item member
      have different := arrives other queue' isBefore item member
      refine ⟨before, ?_, stage, (limits _).trans mode⟩
      rcases cases with ⟨_, resolved⟩ | ⟨_, resolved⟩
      · simp [after_calls, resolved, isEntry]
      · simp [after_calls, resolved, isEntry, different]
  · by_cases same : other = type
    · subst same
      obtain rfl : (queue.enqueue executionId call).1 = queue' := by
        simpa [ConcurrencyControlService.updateQueue] using isQueue'
      have distinct := consistent.once other queue isQueue
      rcases cases with ⟨waits, _⟩ | ⟨passes, _⟩
      · rw [waits, List.map_append, List.nodup_append]
        refine ⟨distinct, by simp, fun promise member call' member' => ?_⟩
        obtain ⟨item, isItem, rfl⟩ := List.mem_map.mp member
        rw [List.map_singleton, List.mem_singleton] at member'
        rw [member']
        exact arrives other queue isQueue item isItem
      · rw [passes]
        exact distinct
    · exact consistent.once other queue' (by simpa [ConcurrencyControlService.updateQueue, same] using isQueue')
  · rw [after_calls] at isOther
    obtain ⟨before, isBefore, rfl⟩ := Option.map_eq_some_iff.mp isOther
    refine counted_of_limits limits ?_
    split
    · rename_i letThrough
      have same : other = call := by
        rcases cases with ⟨_, resolved⟩ | ⟨_, resolved⟩
        · simp [resolved] at letThrough
        · simpa [resolved] using letThrough
      subst same
      obtain rfl := Option.some.inj (isCall.symm.trans isBefore)
      exact counted_letThrough (consistent.counted other entry isBefore) fun _ _ => isLimited
    · exact consistent.counted other before isBefore
  · obtain ⟨before, isBefore, either⟩ := consistent.entries executionId' other holds
    refine ⟨before, ?_, either⟩
    have still : before.letThrough = before := by
      apply letThrough_of_not_throttled
      intro executionId' stage
      rcases either with stage' | stage' <;> rw [stage'] at stage <;> cases stage
    simp [after_calls, isBefore, still]

theorem consistent_throttle {active : ActiveExecutions} (consistent : active.Consistent) {call : Promise}
    {entry : Call} (isCall : active.calls[call]? = some entry) (creating : entry.stage = .creating)
    (executionId : ExecutionId) : (active.throttle call entry.executionMode executionId).Consistent := by
  obtain ⟨noSlot, noRelease⟩ : entry.slots = 0 ∧ entry.releases = 0 := by
    simpa only [Counted, creating] using consistent.counted call entry isCall
  have moves : ∀ executionId, entry.stage ≠ .throttled executionId := by simp [creating]
  have notHeld : ∀ executionId, active.holder executionId ≠ some call := by
    intro executionId holds
    obtain ⟨entry', isEntry', either⟩ := consistent.entries executionId call holds
    obtain rfl := Option.some.inj (isCall.symm.trans isEntry')
    simp [creating] at either
  unfold throttle
  split
  · rename_i unlimited
    refine consistent_withStage consistent _ isCall moves ⟨?_, noRelease⟩ fun executionId holds =>
      absurd holds (notHeld executionId)
    simp [ConcurrencyControlService.slotOf, unlimited, noSlot]
  · rename_i isLimited
    have begun := consistent_withStage consistent (.throttled executionId) isCall moves
      ⟨noSlot, noRelease⟩ fun executionId holds => absurd holds (notHeld executionId)
    exact @consistent_enqueue _ begun call { entry with stage := .throttled executionId } executionId
      (by simp [withStage_calls, isCall]) rfl isLimited fun type queue isQueue item member same => by
        obtain ⟨waits, isWaiting, throttled, _⟩ := consistent.waiting type queue isQueue item member
        rw [same, isCall] at isWaiting
        obtain rfl := Option.some.inj isWaiting
        exact moves _ throttled

theorem holder_register (active : ActiveExecutions) (call : Promise) (executionId other : ExecutionId) :
    (active.register call executionId).holder other =
      if other = executionId then some call else active.holder other := by
  simp only [holder, register, withStage, OrderedMap.get?_set]
  split <;> rfl

theorem register_calls (active : ActiveExecutions) (call other : Promise) (executionId : ExecutionId) :
    (active.register call executionId).calls[other]? =
      active.calls[other]?.map fun entry =>
        if other = call then { entry with stage := .registered executionId } else entry :=
  withStage_calls _ call other _

theorem consistent_register (consistent : active.Consistent) (isCall : active.calls[call]? = some entry)
    (moves : ∀ executionId, entry.stage ≠ .throttled executionId)
    (unregistered : ∀ executionId, entry.stage ≠ .registered executionId ∧ entry.stage ≠ .settled executionId)
    (slots : entry.slots = active.concurrencyControl.slotOf entry.executionMode) (releases : entry.releases = 0)
    (executionId : ExecutionId) : (active.register call executionId).Consistent := by
  have notHeld : ∀ executionId, active.holder executionId ≠ some call := by
    intro executionId holds
    obtain ⟨entry', isEntry', either⟩ := consistent.entries executionId call holds
    obtain rfl := Option.some.inj (isCall.symm.trans isEntry')
    exact either.elim (unregistered executionId).1 (unregistered executionId).2
  have staged := consistent_withStage consistent (.registered executionId) isCall moves ⟨slots, releases⟩
    fun executionId holds => absurd holds (notHeld executionId)
  refine ⟨staged.enabled, staged.waiting, staged.once, staged.counted, fun other call' holds => ?_⟩
  rw [holder_register] at holds
  split at holds
  · obtain rfl := Option.some.inj holds
    rename_i same
    exact ⟨_, by rw [register_calls, isCall]; rfl, .inl (by simp [same])⟩
  · exact staged.entries other call' holds

theorem holder_erase (active : ActiveExecutions) (executionId other : ExecutionId) :
    ({ active with activeExecutions := active.activeExecutions.erase executionId } : ActiveExecutions).holder other =
      if other = executionId then none else active.holder other := by
  by_cases same : other = executionId
  · simp [holder, same]
  · simp [holder, same, OrderedMap.get?_erase_of_ne]

theorem holder_finish (active : ActiveExecutions) (call : Promise) (mode : WorkflowExecuteMode)
    (executionId other : ExecutionId) : (active.finish call mode executionId).holder other =
      if other = executionId then none else active.holder other :=
  holder_erase active executionId other

theorem finish_calls (active : ActiveExecutions) (call other : Promise) (mode : WorkflowExecuteMode)
    (executionId : ExecutionId) : (active.finish call mode executionId).calls[other]? =
      (active.after (active.concurrencyControl.release mode)).calls[other]?.map fun entry =>
        if other = call then
          { entry with
            stage := .finished
            releases := entry.releases + active.concurrencyControl.slotOf mode }
        else entry := by
  simp only [finish, List.getElem?_modify, Option.map_eq_map, eq_comm (a := call)]

theorem consistent_finish (consistent : active.Consistent) {executionId : ExecutionId}
    (isCall : active.calls[call]? = some entry) (settled : entry.stage = .settled executionId) :
    (active.finish call entry.executionMode executionId).Consistent := by
  have released : (active.after (active.concurrencyControl.release entry.executionMode)).Consistent :=
    consistent_serves consistent ConcurrencyQueue.dequeue_served entry.executionMode
  have limits := fun mode' =>
    active.concurrencyControl.limitedBy_onQueue entry.executionMode mode' ConcurrencyQueue.dequeue
  have still : entry.letThrough = entry := letThrough_of_not_throttled (by simp [settled])
  have isAfter : (active.after (active.concurrencyControl.release entry.executionMode)).calls[call]? = some entry := by
    simp [after_calls, isCall, still]
  obtain ⟨slots, releases⟩ : entry.slots = active.concurrencyControl.slotOf entry.executionMode ∧
      entry.releases = 0 := by
    simpa only [Counted, settled] using consistent.counted call entry isCall
  refine ⟨released.enabled, fun type queue isQueue item member => ?_, released.once, fun other found isOther => ?_,
    fun other call' holds => ?_⟩
  · obtain ⟨waits, isWaiting, throttled, limited⟩ := released.waiting type queue isQueue item member
    have different : item.resolve ≠ call := by
      intro same
      rw [same] at isWaiting
      obtain rfl := Option.some.inj (isAfter.symm.trans isWaiting)
      simp [settled] at throttled
    refine ⟨waits, ?_, throttled, limited⟩
    rw [finish_calls]
    exact (congrArg _ isWaiting).trans (by simp [different])
  · rw [finish_calls] at isOther
    obtain ⟨before, isBefore, rfl⟩ := Option.map_eq_some_iff.mp isOther
    by_cases same : other = call
    · subst same
      obtain rfl := Option.some.inj (isAfter.symm.trans isBefore)
      refine counted_of_limits limits ?_
      simp only [if_true, Counted, slots, releases, Nat.zero_add, and_self]
    · rw [if_neg same]
      exact released.counted other before isBefore
  · rw [holder_finish] at holds
    split at holds
    · cases holds
    · rename_i different
      obtain ⟨before, isBefore, either⟩ := released.entries other call' holds
      have notCall : call' ≠ call := by
        rintro rfl
        obtain rfl := Option.some.inj (isAfter.symm.trans isBefore)
        simp only [settled, reduceCtorEq, Stage.settled.injEq, false_or] at either
        exact different either.symm
      exact ⟨before, by rw [finish_calls, isBefore]; simp [notCall], either⟩

theorem holder_updateExecution (active : ActiveExecutions) (executionId other : ExecutionId)
    (change : IExecutingWorkflowData → IExecutingWorkflowData)
    (kept : ∀ execution, (change execution).postExecutePromise = execution.postExecutePromise) :
    (active.updateExecution executionId change).holder other = active.holder other := by
  unfold updateExecution
  cases found : active.activeExecutions.get? executionId with
  | none => rfl
  | some execution =>
    simp only [holder, OrderedMap.get?_set]
    split
    · rename_i same
      subst same
      simp [found, kept]
    · rfl

theorem updateExecution_rest (active : ActiveExecutions) (executionId : ExecutionId)
    (change : IExecutingWorkflowData → IExecutingWorkflowData) :
    (active.updateExecution executionId change).calls = active.calls ∧
      (active.updateExecution executionId change).concurrencyControl = active.concurrencyControl ∧
      (active.updateExecution executionId change).executionsMode = active.executionsMode := by
  unfold updateExecution
  split <;> exact ⟨rfl, rfl, rfl⟩

theorem consistent_updateExecution (consistent : active.Consistent) (executionId : ExecutionId)
    {change : IExecutingWorkflowData → IExecutingWorkflowData}
    (kept : ∀ execution, (change execution).postExecutePromise = execution.postExecutePromise) :
    (active.updateExecution executionId change).Consistent := by
  obtain ⟨calls, control, mode⟩ := active.updateExecution_rest executionId change
  refine ⟨?_, ?_, ?_, ?_, fun other call holds => ?_⟩
  · rw [control, mode]
    exact consistent.enabled
  · rw [control, calls]
    exact consistent.waiting
  · rw [control]
    exact consistent.once
  · rw [control, calls]
    exact consistent.counted
  · rw [holder_updateExecution active executionId other change kept] at holds
    rw [calls]
    exact consistent.entries other call holds

theorem settle_cases (active : ActiveExecutions) (executionId : ExecutionId) :
    active.settlePostExecutePromise executionId = active ∨
      ∃ call entry registered, active.holder executionId = some call ∧ active.calls[call]? = some entry ∧
        entry.stage = .registered registered ∧
        active.settlePostExecutePromise executionId = active.withStage call (.settled executionId) := by
  unfold settlePostExecutePromise
  cases found : active.activeExecutions.get? executionId with
  | none => exact .inl rfl
  | some execution =>
    simp only
    cases isCall : active.calls[execution.postExecutePromise]? with
    | none => exact .inl rfl
    | some entry =>
      simp only
      split
      · rename_i registered stage
        exact .inr ⟨_, entry, registered, by simp [holder, found], isCall, stage, rfl⟩
      · exact .inl rfl

theorem consistent_settle (consistent : active.Consistent) (executionId : ExecutionId) :
    (active.settlePostExecutePromise executionId).Consistent := by
  rcases settle_cases active executionId with same | ⟨call, entry, registered, holds, isCall, stage, next⟩
  · rw [same]
    exact consistent
  · rw [next]
    refine consistent_withStage consistent _ isCall (by simp [stage]) ?_ fun other holds' => ?_
    · simpa only [Counted, stage] using consistent.counted call entry isCall
    · -- the entries of two executions are not of one call
      obtain ⟨entry', isEntry', either⟩ := consistent.entries executionId call holds
      obtain ⟨entry'', isEntry'', either'⟩ := consistent.entries other call holds'
      obtain rfl := Option.some.inj (isCall.symm.trans isEntry')
      obtain rfl := Option.some.inj (isCall.symm.trans isEntry'')
      simp only [stage, Stage.registered.injEq, reduceCtorEq, or_false] at either either'
      exact .inr (by rw [← either, either'])

/-- A new call stands at the end of the list. -/
def begin (active : ActiveExecutions) (mode : WorkflowExecuteMode) : ActiveExecutions :=
  { active with
    calls := active.calls ++ [{ executionMode := mode, stage := .creating, slots := 0, releases := 0 }] }

theorem begin_calls {mode : WorkflowExecuteMode} (isCall : (active.begin mode).calls[call]? = some entry) :
    active.calls[call]? = some entry ∨
      (call = active.calls.length ∧ entry = { executionMode := mode, stage := .creating, slots := 0, releases := 0 }) :=
  Numbered.concat_iff.mp isCall

theorem calls_begin_of_some {mode : WorkflowExecuteMode} (isCall : active.calls[call]? = some entry) :
    (active.begin mode).calls[call]? = some entry :=
  Numbered.concat_of_some isCall _

theorem consistent_begin (consistent : active.Consistent) (mode : WorkflowExecuteMode) :
    (active.begin mode).Consistent := by
  refine ⟨consistent.enabled, fun type queue isQueue item member => ?_, consistent.once, fun call entry isCall => ?_,
    fun executionId call holds => ?_⟩
  · obtain ⟨entry, isCall, rest⟩ := consistent.waiting type queue isQueue item member
    exact ⟨entry, calls_begin_of_some isCall, rest⟩
  · rcases begin_calls isCall with before | ⟨_, rfl⟩
    · exact consistent.counted call entry before
    · exact ⟨rfl, rfl⟩
  · obtain ⟨entry, isCall, either⟩ := consistent.entries executionId call holds
    exact ⟨entry, calls_begin_of_some isCall, either⟩

theorem holder_ne (consistent : active.Consistent) (isCall : active.calls[call]? = some entry)
    (unregistered : ∀ executionId, entry.stage ≠ .registered executionId ∧ entry.stage ≠ .settled executionId)
    (executionId : ExecutionId) : active.holder executionId ≠ some call := by
  intro holds
  obtain ⟨entry', isEntry', either⟩ := consistent.entries executionId call holds
  obtain rfl := Option.some.inj (isCall.symm.trans isEntry')
  exact either.elim (unregistered executionId).1 (unregistered executionId).2

theorem slotOf_of_queue_mode (consistent : active.Consistent) (queueMode : active.executionsMode ≠ .regular)
    (mode : WorkflowExecuteMode) :
    active.concurrencyControl.slotOf mode = 0 := by
  have disabled : active.concurrencyControl.isEnabled = false := by
    by_contra enabled
    exact queueMode (consistent.enabled (by simpa using enabled))
  simp [ConcurrencyControlService.slotOf, ConcurrencyControlService.limitedBy, disabled]

/-- What a step does, by the stage of the call that it is about. -/
inductive Does (active : ActiveExecutions) : ExecutionEvent → ActiveExecutions → Prop where
  | nothing {event} (keeps : active.KeepsSlots event) : Does active event active
  | begin (mode) : Does active (.add mode none) (active.begin mode)
  | beginThrottled (mode executionId) :
    Does active (.add mode (some executionId))
      ((active.begin mode).throttle active.calls.length mode executionId)
  | creationThrows {call entry result} (isCall : active.calls[call]? = some entry) (stage : entry.stage = .creating)
    (failed : result = none ∨ result = some "") : Does active (.created call result) (active.withStage call .threw)
  | throttle {call entry executionId} (isCall : active.calls[call]? = some entry) (stage : entry.stage = .creating)
    (regular : active.executionsMode = .regular) :
    Does active (.created call (some executionId)) (active.throttle call entry.executionMode executionId)
  | registerNew {call entry executionId} (isCall : active.calls[call]? = some entry) (stage : entry.stage = .creating)
    (valid : executionId ≠ "") (queueMode : active.executionsMode ≠ .regular) :
    Does active (.created call (some executionId)) (active.register call executionId)
  | savingThrows {call entry executionId} (isCall : active.calls[call]? = some entry)
    (stage : entry.stage = .saving executionId) : Does active (.saved call false) (active.withStage call .threw)
  | register {call entry executionId} (isCall : active.calls[call]? = some entry)
    (stage : entry.stage = .saving executionId) :
    Does active (.saved call true) (active.register call executionId)
  | stop (executionId) :
    Does active (.stopExecution executionId) (active.settlePostExecutePromise executionId)
  | finalize (executionId) :
    Does active (.finalizeExecution executionId) (active.settlePostExecutePromise executionId)
  | finish {call entry executionId} (isCall : active.calls[call]? = some entry)
    (stage : entry.stage = .settled executionId) :
    Does active (.finally call) (active.finish call entry.executionMode executionId)
  | remove (mode executionId) : Does active (.remove mode executionId)
    (active.after (active.concurrencyControl.onQueue mode fun queue => queue.remove executionId))
  | setStatus (executionId status) : Does active (.setStatus executionId status)
    (active.updateExecution executionId fun execution => { execution with status })
  | attachResponsePromise (executionId) : Does active (.attachResponsePromise executionId)
    (active.updateExecution executionId fun execution => { execution with responsePromise := true })

theorem does_created (active : ActiveExecutions) (call : Promise) (result : Option ExecutionId) :
    active.Does (.created call result) (active.step (.created call result)) := by
  cases isCall : active.calls[call]? with
  | none =>
    simp only [step, isCall]
    cases result with
    | none => exact .nothing trivial
    | some executionId => exact .nothing (by simp [KeepsSlots, isCall])
  | some entry =>
    by_cases stage : entry.stage = .creating
    · cases result with
      | none =>
        simp only [step, isCall, stage]
        exact .creationThrows isCall stage (.inl rfl)
      | some executionId =>
        simp only [step, isCall, stage]
        by_cases valid : executionId = ""
        · rw [if_pos valid]
          exact .creationThrows isCall stage (.inr (by rw [valid]))
        · rw [if_neg valid]
          by_cases regular : active.executionsMode = .regular
          · rw [if_pos regular]
            exact .throttle isCall stage regular
          · rw [if_neg regular]
            exact .registerNew isCall stage valid regular
    · have keeps : active.KeepsSlots (.created call result) := by
        cases result with
        | none => trivial
        | some executionId =>
          intro entry' isEntry' creating
          obtain rfl := Option.some.inj (isCall.symm.trans isEntry')
          exact absurd creating stage
      have same : active.step (.created call result) = active := by
        simp only [step, isCall]
        split
        · rename_i creating
          exact absurd creating stage
        · rename_i creating
          exact absurd creating stage
        · rfl
      rw [same]
      exact .nothing keeps

theorem does_saved (active : ActiveExecutions) (call : Promise) (succeeds : Bool) :
    active.Does (.saved call succeeds) (active.step (.saved call succeeds)) := by
  simp only [step]
  split
  · rename_i absent
    refine .nothing ?_
    cases succeeds <;> simp [KeepsSlots, absent]
  · rename_i entry isCall
    split
    · rename_i executionId stage
      cases succeeds with
      | true => exact .register isCall stage
      | false => exact .savingThrows isCall stage
    · rename_i moved
      refine .nothing ?_
      cases succeeds <;>
      · intro entry' executionId isEntry' stage
        obtain rfl := Option.some.inj (isCall.symm.trans isEntry')
        exact absurd stage (moved executionId)

theorem does_finally (active : ActiveExecutions) (call : Promise) :
    active.Does (.finally call) (active.step (.finally call)) := by
  simp only [step]
  split
  · rename_i absent
    exact .nothing (by simp [KeepsSlots, absent])
  · rename_i entry isCall
    split
    · rename_i executionId stage
      exact .finish isCall stage
    · rename_i moved
      refine .nothing fun entry' executionId isEntry' stage => ?_
      obtain rfl := Option.some.inj (isCall.symm.trans isEntry')
      exact absurd stage (moved executionId)

theorem step_does (active : ActiveExecutions) (event : ExecutionEvent) : active.Does event (active.step event) := by
  cases event with
  | add mode executionId =>
    cases executionId with
    | none => exact .begin mode
    | some executionId => exact .beginThrottled mode executionId
  | created call result => exact does_created active call result
  | saved call succeeds => exact does_saved active call succeeds
  | stopExecution executionId => exact .stop executionId
  | finalizeExecution executionId => exact .finalize executionId
  | «finally» call => exact does_finally active call
  | remove mode executionId => exact .remove mode executionId
  | setStatus executionId status => exact .setStatus executionId status
  | attachResponsePromise executionId => exact .attachResponsePromise executionId

theorem consistent_step {active : ActiveExecutions} (consistent : active.Consistent) (event : ExecutionEvent) :
    (active.step event).Consistent := by
  have counted : ∀ {call : Promise} {entry : Call}, active.calls[call]? = some entry →
      Counted active.concurrencyControl entry := fun isCall => consistent.counted _ _ isCall
  have does := step_does active event
  generalize active.step event = next at does ⊢
  cases does with
  | nothing => exact consistent
  | begin mode => exact consistent_begin consistent mode
  | beginThrottled mode executionId =>
    exact @consistent_throttle (active.begin mode) (consistent_begin consistent mode) active.calls.length
      { executionMode := mode, stage := .creating, slots := 0, releases := 0 } (by simp [begin]) rfl executionId
  | creationThrows isCall stage =>
    have slots := counted isCall
    simp only [Counted, stage] at slots
    exact consistent_withStage consistent .threw isCall (by simp [stage])
      ⟨by rw [slots.1]; exact Nat.zero_le _, slots.2⟩ fun executionId holds =>
        absurd holds (holder_ne consistent isCall (by simp [stage]) executionId)
  | throttle isCall stage => exact consistent_throttle consistent isCall stage _
  | registerNew isCall stage valid queueMode =>
    have slots := counted isCall
    simp only [Counted, stage] at slots
    exact consistent_register consistent isCall (by simp [stage]) (by simp [stage])
      (by rw [slots.1, slotOf_of_queue_mode consistent queueMode]) slots.2 _
  | savingThrows isCall stage =>
    have slots := counted isCall
    simp only [Counted, stage] at slots
    exact consistent_withStage consistent .threw isCall (by simp [stage]) ⟨Nat.le_of_eq slots.1, slots.2⟩
      fun executionId holds => absurd holds (holder_ne consistent isCall (by simp [stage]) executionId)
  | register isCall stage =>
    have slots := counted isCall
    simp only [Counted, stage] at slots
    exact consistent_register consistent isCall (by simp [stage]) (by simp [stage]) slots.1 slots.2 _
  | stop executionId => exact consistent_settle consistent executionId
  | finalize executionId => exact consistent_settle consistent executionId
  | finish isCall stage => exact consistent_finish consistent isCall stage
  | remove mode executionId => exact consistent_serves consistent (fun queue => queue.remove_served executionId) mode
  | setStatus executionId status => exact consistent_updateExecution consistent executionId fun _ => rfl
  | attachResponsePromise executionId => exact consistent_updateExecution consistent executionId fun _ => rfl

/-! ## When a slot is lost -/

theorem noneLost_withStage (noneLost : active.NoneLost) {stage : Stage}
    (unregistered : ∀ executionId, stage ≠ .registered executionId)
    (slotless : stage = .threw → ∀ entry : Call, active.calls[call]? = some entry → entry.slots = 0) :
    (active.withStage call stage).NoneLost := by
  intro other entry isOther lost
  rw [withStage_calls] at isOther
  obtain ⟨before, isBefore, rfl⟩ := Option.map_eq_some_iff.mp isOther
  by_cases same : other = call
  · subst same
    obtain ⟨holds, threw | ⟨executionId, registered, _⟩⟩ := lost
    · rw [if_pos rfl] at holds threw
      exact holds (slotless threw before isBefore)
    · rw [if_pos rfl] at registered
      exact unregistered executionId registered
  · rw [if_neg same] at lost
    exact noneLost other before isBefore lost

theorem noneLost_after (noneLost : active.NoneLost) (outcome : ConcurrencyControlService × List Effect) :
    (active.after outcome).NoneLost := by
  intro call entry isCall lost
  rw [after_calls] at isCall
  obtain ⟨before, isBefore, rfl⟩ := Option.map_eq_some_iff.mp isCall
  split at lost
  · by_cases throttled : ∃ executionId, before.stage = .throttled executionId
    · -- the call goes on, so its slot is in use
      obtain ⟨executionId, stage⟩ := throttled
      obtain ⟨_, threw | ⟨_, registered, _⟩⟩ := lost
      · simp [Call.letThrough, stage] at threw
      · simp [Call.letThrough, stage] at registered
    · rw [letThrough_of_not_throttled fun executionId stage => throttled ⟨executionId, stage⟩] at lost
      exact noneLost call before isBefore lost
  · exact noneLost call before isBefore lost

theorem noneLost_throttle (noneLost : active.NoneLost) (call : Promise) (mode : WorkflowExecuteMode)
    (executionId : ExecutionId) : (active.throttle call mode executionId).NoneLost := by
  unfold throttle
  split
  · exact noneLost_withStage noneLost (by simp) (by simp)
  · exact noneLost_after (noneLost_withStage noneLost (by simp) (by simp)) _

theorem noneLost_begin (noneLost : active.NoneLost) (mode : WorkflowExecuteMode) :
    (active.begin mode).NoneLost := by
  intro call entry isCall lost
  rcases begin_calls isCall with before | ⟨_, rfl⟩
  · exact noneLost call entry before lost
  · exact lost.1 rfl

theorem noneLost_settle (noneLost : active.NoneLost) (executionId : ExecutionId) :
    (active.settlePostExecutePromise executionId).NoneLost := by
  rcases settle_cases active executionId with same | ⟨call, _, _, _, _, _, next⟩
  · rw [same]
    exact noneLost
  · rw [next]
    exact noneLost_withStage noneLost (by simp) (by simp)

theorem noneLost_updateExecution (noneLost : active.NoneLost) (executionId : ExecutionId)
    {change : IExecutingWorkflowData → IExecutingWorkflowData}
    (kept : ∀ execution, (change execution).postExecutePromise = execution.postExecutePromise) :
    (active.updateExecution executionId change).NoneLost := by
  intro call entry isCall lost
  rw [(active.updateExecution_rest executionId change).1] at isCall
  refine noneLost call entry isCall ⟨lost.1, lost.2.imp_right ?_⟩
  rintro ⟨registered, stage, gone⟩
  rw [holder_updateExecution active executionId registered change kept] at gone
  exact ⟨registered, stage, gone⟩

/-- A call that enters its execution takes the place of the one that held the entry. -/
theorem noneLost_register_iff (noneLost : active.NoneLost) (isCall : active.calls[call]? = some entry)
    (unregistered : ∀ executionId, entry.stage ≠ .registered executionId) (executionId : ExecutionId) :
    (active.register call executionId).NoneLost ↔ active.Unheld executionId := by
  constructor
  · intro stays other held holds isOther stage
    by_contra slots
    have different : other ≠ call := by
      rintro rfl
      obtain rfl := Option.some.inj (isCall.symm.trans isOther)
      exact unregistered executionId stage
    refine stays other held (by simp [register_calls, isOther, different]) ⟨slots, .inr ⟨executionId, stage, ?_⟩⟩
    simp [holder_register, Ne.symm different]
  · intro unheld other after isOther lost
    rw [register_calls] at isOther
    obtain ⟨before, isBefore, rfl⟩ := Option.map_eq_some_iff.mp isOther
    obtain ⟨holds, lost⟩ := lost
    by_cases same : other = call
    · subst same
      simp [holder_register] at lost
    · rw [if_neg same] at holds lost
      rcases lost with threw | ⟨registered, stage, gone⟩
      · exact noneLost other before isBefore ⟨holds, .inl threw⟩
      · by_cases held : active.holder registered = some other
        · by_cases overwritten : registered = executionId
          · subst overwritten
            exact holds (unheld other before held isBefore stage)
          · simp [holder_register, overwritten, held] at gone
        · exact noneLost other before isBefore ⟨holds, .inr ⟨registered, stage, held⟩⟩

/-- The handler deletes the entry of the execution, also when it is that of a later call. -/
theorem noneLost_finish_iff (noneLost : active.NoneLost) {executionId : ExecutionId}
    (isCall : active.calls[call]? = some entry) (settled : entry.stage = .settled executionId) :
    (active.finish call entry.executionMode executionId).NoneLost ↔ active.Unheld executionId := by
  have released := noneLost_after noneLost (active.concurrencyControl.release entry.executionMode)
  have still : ∀ {other : Promise} {held : Call} {registered : ExecutionId}, active.calls[other]? = some held →
      held.stage = .registered registered →
      (active.after (active.concurrencyControl.release entry.executionMode)).calls[other]? = some held := by
    intro other held registered isOther stage
    have same : held.letThrough = held := letThrough_of_not_throttled (by simp [stage])
    simp [after_calls, isOther, same]
  constructor
  · intro stays other held holds isOther stage
    by_contra slots
    have different : other ≠ call := by
      rintro rfl
      obtain rfl := Option.some.inj (isCall.symm.trans isOther)
      simp [stage] at settled
    refine stays other held ?_ ⟨slots, .inr ⟨executionId, stage, ?_⟩⟩
    · rw [finish_calls, still isOther stage]
      simp [different]
    · simp [holder_finish]
  · intro unheld other after isOther lost
    rw [finish_calls] at isOther
    obtain ⟨before, isBefore, rfl⟩ := Option.map_eq_some_iff.mp isOther
    obtain ⟨holds, lost⟩ := lost
    by_cases same : other = call
    · subst same
      simp at lost
    · rw [if_neg same] at holds lost
      rcases lost with threw | ⟨registered, stage, gone⟩
      · exact released other before isBefore ⟨holds, .inl threw⟩
      · by_cases held : active.holder registered = some other
        · by_cases deleted : registered = executionId
          · subst deleted
            obtain ⟨original, isOriginal, same'⟩ : ∃ original : Call, active.calls[other]? = some original ∧
                before = original := by
              rw [after_calls] at isBefore
              obtain ⟨original, isOriginal, rfl⟩ := Option.map_eq_some_iff.mp isBefore
              refine ⟨original, isOriginal, ?_⟩
              split at stage
              · rename_i served
                rw [if_pos served]
                obtain ⟨mode, stage', slots, releases⟩ := original
                cases stage' with
                | throttled _ => cases stage
                | _ => rfl
              · rename_i notServed
                rw [if_neg notServed]
            subst same'
            exact holds (unheld other before held isOriginal stage)
          · simp [holder_finish, deleted, held] at gone
        · exact released other before isBefore ⟨holds, .inr ⟨registered, stage, held⟩⟩

theorem noneLost_step_iff (consistent : active.Consistent) (noneLost : active.NoneLost) (event : ExecutionEvent) :
    (active.step event).NoneLost ↔ active.KeepsSlots event := by
  have does := step_does active event
  generalize active.step event = next at does ⊢
  cases does with
  | nothing keeps => exact iff_of_true noneLost keeps
  | begin mode => exact iff_of_true (noneLost_begin noneLost mode) trivial
  | beginThrottled mode executionId =>
    exact iff_of_true (noneLost_throttle (noneLost_begin noneLost mode) _ _ _) trivial
  | @creationThrows call entry result isCall stage failed =>
    have slots : entry.slots = 0 := by
      have counted := consistent.counted call entry isCall
      simp only [Counted, stage] at counted
      exact counted.1
    have threw : (active.withStage call .threw).NoneLost :=
      noneLost_withStage noneLost (by simp) fun _ entry' isEntry' => by
        rw [Option.some.inj (isEntry'.symm.trans isCall)]
        exact slots
    refine iff_of_true threw ?_
    rcases failed with rfl | rfl
    · trivial
    · intro _ _ _ valid
      exact absurd rfl valid
  | throttle isCall stage regular =>
    refine iff_of_true (noneLost_throttle noneLost _ _ _) ?_
    intro _ _ _ _ queueMode
    rw [regular] at queueMode
    cases queueMode
  | @registerNew call entry executionId isCall stage valid queueMode =>
    rw [noneLost_register_iff noneLost isCall (by simp [stage])]
    have isQueue : active.executionsMode = .queue := by
      cases mode : active.executionsMode with
      | regular => exact absurd mode queueMode
      | queue => rfl
    exact ⟨fun unheld _ _ _ _ _ => unheld, fun keeps => keeps entry isCall stage valid isQueue⟩
  | @savingThrows call entry executionId isCall stage =>
    constructor
    · intro stays entry' _ isEntry' _
      by_contra slots
      exact stays call { entry' with stage := .threw } (by simp [withStage_calls, isEntry']) ⟨slots, .inl rfl⟩
    · intro keeps
      exact noneLost_withStage noneLost (by simp) fun _ entry' isEntry' => by
        obtain rfl := Option.some.inj (isCall.symm.trans isEntry')
        exact keeps entry executionId isCall stage
  | @register call entry executionId isCall stage =>
    rw [noneLost_register_iff noneLost isCall (by simp [stage])]
    constructor
    · intro unheld entry' executionId' isEntry' stage'
      obtain rfl := Option.some.inj (isCall.symm.trans isEntry')
      obtain rfl := Stage.saving.inj (stage.symm.trans stage')
      exact unheld
    · exact fun keeps => keeps entry executionId isCall stage
  | stop executionId => exact iff_of_true (noneLost_settle noneLost executionId) trivial
  | finalize executionId => exact iff_of_true (noneLost_settle noneLost executionId) trivial
  | @finish call entry executionId isCall stage =>
    rw [noneLost_finish_iff noneLost isCall stage]
    constructor
    · intro unheld entry' executionId' isEntry' stage'
      obtain rfl := Option.some.inj (isCall.symm.trans isEntry')
      obtain rfl := Stage.settled.inj (stage.symm.trans stage')
      exact unheld
    · exact fun keeps => keeps entry executionId isCall stage
  | remove mode executionId => exact iff_of_true (noneLost_after noneLost _) trivial
  | setStatus executionId status =>
    exact iff_of_true (noneLost_updateExecution noneLost executionId fun _ => rfl) trivial
  | attachResponsePromise executionId =>
    exact iff_of_true (noneLost_updateExecution noneLost executionId fun _ => rfl) trivial

theorem consistent_start {productionLimit evaluationLimit : Int} {executionsMode : ExecutionsMode}
    {service : ConcurrencyControlService}
    (created : ConcurrencyControlService.create productionLimit evaluationLimit executionsMode = .ok service) :
    (start executionsMode service).Consistent where
  enabled := ConcurrencyControlService.create_enabled created
  waiting type queue isQueue item member := by
    rw [ConcurrencyControlService.create_queue created isQueue] at member
    cases member
  once type queue isQueue := by
    rw [ConcurrencyControlService.create_queue created isQueue]
    exact List.nodup_nil
  counted call entry isCall := by simp [start] at isCall
  entries executionId call holds := by simp [start, holder] at holds

/-- Whatever the limits are: the slots are given back in the runs in which every event keeps them, and in no other. -/
theorem always_slotsGivenBack_iff (productionLimit evaluationLimit : Int) (executionsMode : ExecutionsMode)
    (service : ConcurrencyControlService)
    (created : ConcurrencyControlService.create productionLimit evaluationLimit executionsMode = .ok service)
    (events : List ExecutionEvent) :
    Runs.Always step SlotsGivenBack (start executionsMode service) events ↔
      Runs.Every step KeepsSlots (start executionsMode service) events := by
  have begins := consistent_start created
  refine @Runs.always_iff_every_of_kept _ _ step KeepsSlots Consistent SlotsGivenBack
    (fun active event consistent => consistent_step consistent event) (fun active event consistent given => ?_) _ begins
    ?_ events
  · rw [slotsGivenBack_iff (consistent_step consistent event)]
    exact noneLost_step_iff consistent ((slotsGivenBack_iff consistent).mp given) event
  · refine (slotsGivenBack_iff begins).mpr fun call entry isCall => ?_
    simp [start] at isCall

/-- Slots that get lost are all that can go wrong: none is given back twice, and no call has more than its own. -/
theorem always_releasedOnce (productionLimit evaluationLimit : Int) (executionsMode : ExecutionsMode)
    (service : ConcurrencyControlService)
    (created : ConcurrencyControlService.create productionLimit evaluationLimit executionsMode = .ok service)
    (events : List ExecutionEvent) :
    Runs.Always step (fun active => ∀ (call : Promise) (entry : Call), active.calls[call]? = some entry →
      entry.releases ≤ entry.slots ∧ entry.slots ≤ active.concurrencyControl.slotOf entry.executionMode)
      (start executionsMode service) events := by
  have consistent : Runs.Always step Consistent (start executionsMode service) events :=
    Runs.always_of_invariant (fun _ event _ consistent => consistent_step consistent event) (consistent_start created)
      (Runs.every_true _ events)
  refine consistent.imp fun active consistent call entry isCall => ?_
  have counted := consistent.counted call entry isCall
  unfold Counted at counted
  split at counted <;> omega

/-! The first execution runs to its end; its query throws; it is resumed twice. -/

def limitedTo (limit : Int) : ConcurrencyControlService where
  isEnabled := true
  queues
    | .production => newQueue limit
    | .evaluation => newQueue (-1)

theorem finished_slotsGivenBack : Runs.Always step SlotsGivenBack (start .regular (limitedTo 1))
    [.add .webhook none, .created 0 (some "1"), .saved 0 true, .finalizeExecution "1", .finally 0] := by
  refine (always_slotsGivenBack_iff 1 (-1) .regular (limitedTo 1) rfl _).mpr
    ⟨trivial, fun _ _ _ _ queueMode => (by cases queueMode), fun _ executionId _ _ => ?_, trivial,
      fun _ executionId isEntry settled => ?_, trivial⟩
  · intro call _ holds
    cases holds
  · intro call entry holds isCall stage
    obtain rfl := Option.some.inj isEntry
    obtain rfl := Stage.settled.inj settled
    obtain rfl : 0 = call := Option.some.inj holds
    obtain rfl := Option.some.inj isCall
    cases stage

theorem second_releasedOnce : Runs.Always step (fun active => ∀ (call : Promise) (entry : Call),
    active.calls[call]? = some entry → entry.releases ≤ entry.slots ∧
      entry.slots ≤ active.concurrencyControl.slotOf entry.executionMode) (start .regular (limitedTo 1))
    [.add .webhook none, .created 0 (some "1"), .saved 0 true, .finalizeExecution "1", .finally 0] :=
  always_releasedOnce 1 (-1) .regular (limitedTo 1) rfl _

theorem not_slotsGivenBack :
    ConcurrencyControlService.create 1 (-1) .regular = .ok (limitedTo 1) ∧
      ¬ Runs.Always step SlotsGivenBack (start .regular (limitedTo 1))
        [.add .webhook none, .created 0 (some "1"), .saved 0 false] ∧
      ConcurrencyControlService.create 2 (-1) .regular = .ok (limitedTo 2) ∧
      ¬ Runs.Always step SlotsGivenBack (start .regular (limitedTo 2))
        [.add .webhook (some "1"), .saved 0 true, .add .webhook (some "1"), .saved 1 true] := by
  refine ⟨rfl, fun always => ?_, rfl, fun always => ?_⟩
  · have given := always.final.once 0 ⟨.webhook, .threw, 1, 0⟩ (by decide) trivial
    cases given
  · have isOver : ActiveExecutions.Over (List.foldl step (start .regular (limitedTo 2))
        [.add .webhook (some "1"), .saved 0 true, .add .webhook (some "1"), .saved 1 true]) 0
          ⟨.webhook, .registered "1", 1, 0⟩ := by
      change some 1 ≠ some 0
      decide
    have given := always.final.once 0 ⟨.webhook, .registered "1", 1, 0⟩ (by decide) isOver
    cases given

end ActiveExecutions

end N8n.Concurrency
