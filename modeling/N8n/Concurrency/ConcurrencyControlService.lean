import N8n.Concurrency.ConcurrencyQueue
import N8n.Workflow.Interfaces

/-! # Concurrency control

`packages/cli/src/concurrency/concurrency-control.service.ts`: the queues for
the executions of the modes that have a limit.
-/

namespace N8n.Concurrency

/-- `executions.mode` of the configuration. -/
inductive ExecutionsMode where
  | regular
  | queue
deriving DecidableEq, Repr

inductive ConcurrencyQueueType where
  | production
  | evaluation
deriving DecidableEq, Repr

structure InvalidConcurrencyLimitError where
  value : Int
deriving DecidableEq, Repr

structure ConcurrencyControlService where
  isEnabled : Bool
  queues : ConcurrencyQueueType → Option ConcurrencyQueue

/-- The mode of an execution decides on the queue it belongs to. -/
def queueType : WorkflowExecuteMode → Option ConcurrencyQueueType
  | .error | .integrated | .cli | .internal | .manual | .retry => none
  | .webhook | .trigger => some .production
  | .evaluation => some .evaluation

/-- Every limit under `-1` stands for no limit, like `-1`. -/
def checkLimit (limit : Int) : Except InvalidConcurrencyLimitError Int :=
  if limit = 0 then throw ⟨limit⟩ else if limit < -1 then pure (-1) else pure limit

def newQueue (limit : Int) : Option ConcurrencyQueue :=
  if limit > 0 then some { capacity := limit, queue := [] } else none

namespace ConcurrencyControlService

def create (productionLimit evaluationLimit : Int) (executionsMode : ExecutionsMode) :
    Except InvalidConcurrencyLimitError ConcurrencyControlService := do
  let production ← checkLimit productionLimit
  let evaluation ← checkLimit evaluationLimit
  if (production = -1 ∧ evaluation = -1) ∨ executionsMode = .queue then
    return { isEnabled := false, queues := fun _ => none }
  return {
    isEnabled := true
    queues := fun
      | .production => newQueue production
      | .evaluation => newQueue evaluation }

def getQueue (service : ConcurrencyControlService) (mode : WorkflowExecuteMode) : Option ConcurrencyQueue :=
  (queueType mode).bind service.queues

def isUnlimited (service : ConcurrencyControlService) (mode : WorkflowExecuteMode) : Bool :=
  (service.getQueue mode).isNone

/-- The queue that holds the executions of the mode back, if one does. -/
def limitedBy (service : ConcurrencyControlService) (mode : WorkflowExecuteMode) : Option ConcurrencyQueueType :=
  if !service.isEnabled || service.isUnlimited mode then none else queueType mode

def slotOf (service : ConcurrencyControlService) (mode : WorkflowExecuteMode) : Nat :=
  if service.limitedBy mode = none then 0 else 1

def updateQueue (service : ConcurrencyControlService) (type : ConcurrencyQueueType) (queue : ConcurrencyQueue) :
    ConcurrencyControlService :=
  { service with queues := fun other => if other = type then some queue else service.queues other }

/-- `throttle`, `release` and `remove` are an operation on the queue of the mode, and nothing without one. -/
def onQueue (service : ConcurrencyControlService) (mode : WorkflowExecuteMode)
    (operation : ConcurrencyQueue → ConcurrencyQueue × List Effect) : ConcurrencyControlService × List Effect :=
  match service.limitedBy mode with
  | none => (service, [])
  | some type =>
    match service.queues type with
    | none => (service, [])
    | some queue => (service.updateQueue type (operation queue).1, (operation queue).2)

def throttle (service : ConcurrencyControlService) (mode : WorkflowExecuteMode) (executionId : ExecutionId)
    (promise : Promise) : ConcurrencyControlService × List Effect :=
  service.onQueue mode fun queue => queue.enqueue executionId promise

def release (service : ConcurrencyControlService) (mode : WorkflowExecuteMode) :
    ConcurrencyControlService × List Effect :=
  service.onQueue mode ConcurrencyQueue.dequeue

def remove (service : ConcurrencyControlService) (mode : WorkflowExecuteMode) (executionId : ExecutionId) :
    ConcurrencyControlService × List Effect :=
  service.onQueue mode fun queue => queue.remove executionId

def disable (service : ConcurrencyControlService) : ConcurrencyControlService :=
  { service with isEnabled := false }

def emptyQueue (queue : ConcurrencyQueue) : ConcurrencyQueue × List Effect :=
  (queue.queue.map QueueItem.executionId).eraseDups.foldl (fun (queue, effects) executionId =>
    ((queue.remove executionId).1, effects ++ (queue.remove executionId).2)) (queue, [])

/-- The part of `removeAll` on the queues. -/
def emptyQueues (service : ConcurrencyControlService) : ConcurrencyControlService × List Effect :=
  [ConcurrencyQueueType.production, .evaluation].foldl (fun (service, effects) type =>
    match service.queues type with
    | none => (service, effects)
    | some queue => (service.updateQueue type (emptyQueue queue).1, effects ++ (emptyQueue queue).2)) (service, [])

/-! ## What an operation does -/

@[simp] theorem updateQueue_isEnabled (service : ConcurrencyControlService) (type : ConcurrencyQueueType)
    (queue : ConcurrencyQueue) : (service.updateQueue type queue).isEnabled = service.isEnabled := rfl

variable {service : ConcurrencyControlService}

theorem create_enabled {productionLimit evaluationLimit : Int} {executionsMode : ExecutionsMode}
    (created : create productionLimit evaluationLimit executionsMode = .ok service)
    (enabled : service.isEnabled = true) : executionsMode = .regular := by
  cases executionsMode with
  | regular => rfl
  | queue =>
    unfold create at created
    cases production : checkLimit productionLimit with
    | error error => rw [production] at created; cases created
    | ok production' =>
      cases evaluation : checkLimit evaluationLimit with
      | error error => rw [production, evaluation] at created; cases created
      | ok evaluation' =>
        rw [production, evaluation] at created
        obtain rfl : { isEnabled := false, queues := fun _ => none } = service := by
          simpa [bind, Except.bind, pure, Except.pure] using created
        cases enabled

variable {queue : ConcurrencyQueue} {type : ConcurrencyQueueType}

theorem create_queue {productionLimit evaluationLimit : Int} {executionsMode : ExecutionsMode}
    (created : create productionLimit evaluationLimit executionsMode = .ok service)
    (isQueue : service.queues type = some queue) :
    queue.queue = [] := by
  have empty : ∀ {limit : Int}, newQueue limit = some queue → queue.queue = [] := by
    intro limit new
    unfold newQueue at new
    split at new
    · obtain rfl := Option.some.inj new
      rfl
    · cases new
  unfold create at created
  cases production : checkLimit productionLimit with
  | error error => rw [production] at created; cases created
  | ok production' =>
    cases evaluation : checkLimit evaluationLimit with
    | error error => rw [production, evaluation] at created; cases created
    | ok evaluation' =>
      rw [production, evaluation] at created
      simp only [bind, Except.bind, pure, Except.pure] at created
      split at created
      · obtain rfl := Except.ok.inj created
        cases isQueue
      · obtain rfl := Except.ok.inj created
        cases type with
        | production => exact empty isQueue
        | evaluation => exact empty isQueue

variable {mode : WorkflowExecuteMode}

theorem limitedBy_some (limited : service.limitedBy mode = some type) :
    service.isEnabled = true ∧ queueType mode = some type ∧ ∃ queue, service.queues type = some queue := by
  unfold limitedBy at limited
  split at limited
  · cases limited
  · rename_i open'
    simp only [isUnlimited, getQueue, limited, Option.bind_some, Bool.or_eq_true, Bool.not_eq_true',
      Option.isNone_iff_eq_none, not_or, Bool.not_eq_false] at open'
    exact ⟨open'.1, limited, Option.ne_none_iff_exists'.mp open'.2⟩

theorem onQueue_unlimited (unlimited : service.limitedBy mode = none)
    (operation : ConcurrencyQueue → ConcurrencyQueue × List Effect) :
    service.onQueue mode operation = (service, []) := by
  rw [onQueue, unlimited]

theorem onQueue_limited (limited : service.limitedBy mode = some type)
    (isQueue : service.queues type = some queue) (operation : ConcurrencyQueue → ConcurrencyQueue × List Effect) :
    service.onQueue mode operation = (service.updateQueue type (operation queue).1, (operation queue).2) := by
  rw [onQueue, limited]
  simp only [isQueue]

theorem limitedBy_updateQueue (isQueue : service.queues type = some queue)
    (queue' : ConcurrencyQueue) (mode : WorkflowExecuteMode) :
    (service.updateQueue type queue').limitedBy mode = service.limitedBy mode := by
  have same : (service.updateQueue type queue').isUnlimited mode = service.isUnlimited mode := by
    unfold isUnlimited getQueue updateQueue
    cases queueType mode with
    | none => rfl
    | some other =>
      by_cases isType : other = type
      · subst isType
        simp [isQueue]
      · simp [isType]
  rw [limitedBy, limitedBy, same, updateQueue_isEnabled]

theorem limitedBy_onQueue (service : ConcurrencyControlService) (mode mode' : WorkflowExecuteMode)
    (operation : ConcurrencyQueue → ConcurrencyQueue × List Effect) :
    (service.onQueue mode operation).1.limitedBy mode' = service.limitedBy mode' := by
  cases limited : service.limitedBy mode with
  | none => rw [onQueue_unlimited limited]
  | some type =>
    obtain ⟨_, _, queue, isQueue⟩ := limitedBy_some limited
    rw [onQueue_limited limited isQueue]
    exact limitedBy_updateQueue isQueue _ mode'

end ConcurrencyControlService

end N8n.Concurrency
