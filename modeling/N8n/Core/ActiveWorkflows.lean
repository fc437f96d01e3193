import N8n.Core.ScheduledTaskManager
import N8n.Library.Loop
import N8n.Library.Runs
import N8n.Workflow.Interfaces

/-! # Active workflows

`packages/core/src/execution-engine/active-workflows.ts`.  What the nodes and
the `cron` package do in a call is given with the call: a trigger registers cron
jobs of its own and returns a response or throws, and so on.
-/

namespace N8n.Core

/-- A response of a trigger; the number of responses before it tells it from the others. -/
structure ITriggerResponse where
  number : Nat
  closeFunction : Bool
deriving DecidableEq, Repr

structure IWorkflowData where
  triggerResponses : List ITriggerResponse
deriving DecidableEq, Repr

structure WorkflowActivationError where
  message : String
  cause : String
  node : Option INode := none
  workflowId : Option WorkflowId := none
deriving DecidableEq, Repr

/-- `WorkflowDeactivationError` adds nothing to its superclass. -/
abbrev WorkflowDeactivationError := WorkflowActivationError

inductive TriggerResult where
  | throws (message : String)
  | noResponse
  | responds (closeFunction : Bool)
deriving DecidableEq, Repr

/-- A call of `runTrigger`, with the jobs that the node registers through `helpers.registerCron` before it ends. -/
structure TriggerOutcome where
  cronJobs : Nat := 0
  result : TriggerResult
deriving DecidableEq, Repr

/-- What a poll node brings: its poll times as cron expressions, and the poll at the activation. -/
structure PollOutcome where
  cronTimes : Except String (List CronExpression)
  executeTrigger : Except String Unit

inductive CloseResult where
  | returns
  | triggerCloseError
  | throws (message : String)
deriving DecidableEq, Repr

/-- The workflow of a call of `add`, and what happens in the call. -/
structure Activation where
  id : WorkflowId
  triggerNodes : List INode
  pollNodes : List INode
  runTrigger : INode → TriggerOutcome
  runPoll : INode → PollOutcome
  /-- What `new CronJob` throws for an expression. -/
  cronJobError : CronExpression → Option String

structure ActiveWorkflows where
  activeWorkflows : OrderedMap WorkflowId IWorkflowData
  scheduledTaskManager : ScheduledTaskManager
  /-- Every response that a trigger has returned. -/
  responses : List ITriggerResponse
  /-- The calls of the close functions, each by the response it is of. -/
  closed : List Nat

namespace ActiveWorkflows

def new : ActiveWorkflows :=
  { activeWorkflows := ∅, scheduledTaskManager := .new, responses := [], closed := [] }

def get (active : ActiveWorkflows) (workflowId : WorkflowId) : Option IWorkflowData :=
  active.activeWorkflows.get? workflowId

/-! ## Activation -/

def activationError (message : String) (node : INode) : WorkflowActivationError :=
  { message := "There was a problem activating the workflow: \"" ++ message ++ "\""
    cause := message
    node := some node }

def runTrigger (active : ActiveWorkflows) (activation : Activation) (node : INode) :
    ActiveWorkflows × Except String (Option ITriggerResponse) :=
  let outcome := activation.runTrigger node
  let scheduledTaskManager := (List.replicate outcome.cronJobs activation.id).foldl ScheduledTaskManager.registerCron
    active.scheduledTaskManager
  match outcome.result with
  | .throws message => ({ active with scheduledTaskManager }, .error message)
  | .noResponse => ({ active with scheduledTaskManager }, .ok none)
  | .responds closeFunction =>
    let response := { number := active.responses.length, closeFunction }
    ({ active with scheduledTaskManager, responses := active.responses ++ [response] }, .ok (some response))

def runTriggers (activation : Activation) (active : ActiveWorkflows) (triggerResponses : List ITriggerResponse) :
    List INode → ActiveWorkflows × Except WorkflowActivationError (List ITriggerResponse)
  | [] => (active, .ok triggerResponses)
  | node :: rest =>
    match active.runTrigger activation node with
    | (next, .error message) => (next, .error (activationError message node))
    | (next, .ok none) => runTriggers activation next triggerResponses rest
    | (next, .ok (some response)) => runTriggers activation next (triggerResponses ++ [response]) rest

/-- The first part of the expression stands for the seconds. -/
def isTooShort (cronTime : CronExpression) : Bool := (cronTime.toList.takeWhile (· ≠ ' ')).contains '*'

def registerCronTimes (activation : Activation) (manager : ScheduledTaskManager) :
    List CronExpression → ScheduledTaskManager × Except String Unit
  | [] => (manager, .ok ())
  | cronTime :: rest =>
    if isTooShort cronTime then
      (manager, .error "The polling interval is too short. It has to be at least a minute.")
    else
      match activation.cronJobError cronTime with
      | some message => (manager, .error message)
      | none => registerCronTimes activation (manager.registerCron activation.id) rest

def activatePolling (activation : Activation) (manager : ScheduledTaskManager) (node : INode) :
    ScheduledTaskManager × Except String Unit :=
  match (activation.runPoll node).cronTimes with
  | .error message => (manager, .error message)
  | .ok cronTimes =>
    match (activation.runPoll node).executeTrigger with
    | .error message => (manager, .error message)
    | .ok () => registerCronTimes activation manager cronTimes

/-- A workflow without trigger responses is not active any more when its polling fails. -/
def activatePollers (workflowId : WorkflowId) (activation : Activation) (triggerResponses : List ITriggerResponse)
    (active : ActiveWorkflows) : List INode → ActiveWorkflows × Except WorkflowActivationError Unit
  | [] => (active, .ok ())
  | node :: rest =>
    match activatePolling activation active.scheduledTaskManager node with
    | (scheduledTaskManager, .error message) =>
      ({ active with
          scheduledTaskManager
          activeWorkflows :=
            if triggerResponses.length = 0 then active.activeWorkflows.erase workflowId else active.activeWorkflows },
        .error (activationError message node))
    | (scheduledTaskManager, .ok ()) =>
      activatePollers workflowId activation triggerResponses { active with scheduledTaskManager } rest

def add (active : ActiveWorkflows) (workflowId : WorkflowId) (activation : Activation) :
    ActiveWorkflows × Except WorkflowActivationError Unit :=
  match runTriggers activation active [] activation.triggerNodes with
  | (next, .error error) => (next, .error error)
  | (next, .ok triggerResponses) =>
    activatePollers workflowId activation triggerResponses
      { next with activeWorkflows := next.activeWorkflows.set workflowId { triggerResponses } } activation.pollNodes

/-! ## Deactivation -/

/-- A `TriggerCloseError` is reported, every other error is thrown. -/
def closeTrigger (closes : ITriggerResponse → CloseResult) (workflowId : WorkflowId) (active : ActiveWorkflows)
    (response : ITriggerResponse) : ActiveWorkflows × Except WorkflowDeactivationError Unit :=
  if !response.closeFunction then (active, .ok ())
  else
    let called := { active with closed := active.closed ++ [response.number] }
    match closes response with
    | .returns | .triggerCloseError => (called, .ok ())
    | .throws message =>
      (called, .error {
        message := "Failed to deactivate trigger of workflow ID \"" ++ workflowId ++ "\": \"" ++ message ++ "\""
        cause := message
        workflowId := some workflowId })

def closeTriggers (closes : ITriggerResponse → CloseResult) (workflowId : WorkflowId) (active : ActiveWorkflows) :
    List ITriggerResponse → ActiveWorkflows × Except WorkflowDeactivationError Unit
  | [] => (active, .ok ())
  | response :: rest =>
    match closeTrigger closes workflowId active response with
    | (next, .error error) => (next, .error error)
    | (next, .ok ()) => closeTriggers closes workflowId next rest

def remove (active : ActiveWorkflows) (workflowId : WorkflowId) (closes : ITriggerResponse → CloseResult) :
    ActiveWorkflows × Except WorkflowDeactivationError Bool :=
  match active.get workflowId with
  | none => (active, .ok false)
  | some data =>
    let deregistered :=
      { active with scheduledTaskManager := active.scheduledTaskManager.deregisterCrons workflowId }
    match closeTriggers closes workflowId deregistered data.triggerResponses with
    | (next, .error error) => (next, .error error)
    | (next, .ok ()) => ({ next with activeWorkflows := next.activeWorkflows.erase workflowId }, .ok true)

/-! ## What an activation leaves behind -/

def registerCrons (manager : ScheduledTaskManager) (workflowId : WorkflowId) (count : Nat) : ScheduledTaskManager :=
  (List.replicate count workflowId).foldl ScheduledTaskManager.registerCron manager

variable (manager : ScheduledTaskManager) (workflowId : WorkflowId)

@[simp] theorem registerCrons_zero :
    registerCrons manager workflowId 0 = manager := rfl

theorem registerCrons_add (first second : Nat) :
    registerCrons (registerCrons manager workflowId first) workflowId second =
      registerCrons manager workflowId (first + second) := by
  simp only [registerCrons, List.replicate_add, List.foldl_append]

theorem registerCrons_succ (count : Nat) :
    registerCrons (manager.registerCron workflowId) workflowId count =
      registerCrons manager workflowId (count + 1) := rfl

theorem registerCrons_stopped (count : Nat) :
    (registerCrons manager workflowId count).stopped = manager.stopped := by
  induction count generalizing manager with
  | zero => rfl
  | succ count ih =>
    rw [← registerCrons_succ, ih, ScheduledTaskManager.registerCron_stopped]

theorem runTriggers_spec (activation : Activation) (active : ActiveWorkflows) (triggerResponses : List ITriggerResponse)
    (nodes : List INode) :
    ∃ count started, (runTriggers activation active triggerResponses nodes).1 =
        { active with
          scheduledTaskManager := registerCrons active.scheduledTaskManager activation.id count
          responses := active.responses ++ started } ∧
      (∀ held, (runTriggers activation active triggerResponses nodes).2 = .ok held →
        held = triggerResponses ++ started) := by
  induction nodes generalizing active triggerResponses with
  | nil =>
    refine ⟨0, [], by simp [runTriggers], fun held returns => ?_⟩
    rw [← Except.ok.inj returns, List.append_nil]
  | cons node rest ih =>
    cases result : (activation.runTrigger node).result with
    | throws message =>
      refine ⟨(activation.runTrigger node).cronJobs, [], ?_, fun held returns => ?_⟩
      · simp [runTriggers, runTrigger, result, registerCrons]
      · simp [runTriggers, runTrigger, result] at returns
    | noResponse =>
      obtain ⟨count, started, next, holds⟩ := ih
        { active with
          scheduledTaskManager :=
            registerCrons active.scheduledTaskManager activation.id (activation.runTrigger node).cronJobs }
        triggerResponses
      have turn : runTriggers activation active triggerResponses (node :: rest) = runTriggers activation
          { active with
            scheduledTaskManager :=
              registerCrons active.scheduledTaskManager activation.id (activation.runTrigger node).cronJobs }
          triggerResponses rest := by
        simp [runTriggers, runTrigger, result, registerCrons]
      refine ⟨(activation.runTrigger node).cronJobs + count, started, ?_, fun held returns => ?_⟩
      · rw [turn, next, registerCrons_add]
      · rw [turn] at returns
        exact holds held returns
    | responds closeFunction =>
      obtain ⟨count, started, next, holds⟩ := ih
        { active with
          scheduledTaskManager :=
            registerCrons active.scheduledTaskManager activation.id (activation.runTrigger node).cronJobs
          responses := active.responses ++ [{ number := active.responses.length, closeFunction }] }
        (triggerResponses ++ [{ number := active.responses.length, closeFunction }])
      have turn : runTriggers activation active triggerResponses (node :: rest) = runTriggers activation
          { active with
            scheduledTaskManager :=
              registerCrons active.scheduledTaskManager activation.id (activation.runTrigger node).cronJobs
            responses := active.responses ++ [{ number := active.responses.length, closeFunction }] }
          (triggerResponses ++ [{ number := active.responses.length, closeFunction }]) rest := by
        simp [runTriggers, runTrigger, result, registerCrons]
      refine ⟨(activation.runTrigger node).cronJobs + count,
        { number := active.responses.length, closeFunction } :: started, ?_, fun held returns => ?_⟩
      · rw [turn, next, registerCrons_add, List.append_assoc]
        rfl
      · rw [turn] at returns
        rw [holds held returns, List.append_assoc]
        rfl

def TriggerThrows (activation : Activation) : Prop :=
  ∃ node ∈ activation.triggerNodes, ∃ message, (activation.runTrigger node).result = .throws message

theorem runTriggers_throws_iff (activation : Activation) (active : ActiveWorkflows)
    (triggerResponses : List ITriggerResponse) (nodes : List INode) :
    (∃ error, (runTriggers activation active triggerResponses nodes).2 = .error error) ↔
      ∃ node ∈ nodes, ∃ message, (activation.runTrigger node).result = .throws message := by
  induction nodes generalizing active triggerResponses with
  | nil => simp [runTriggers]
  | cons node rest ih =>
    cases result : (activation.runTrigger node).result with
    | throws message => simp [runTriggers, runTrigger, result]
    | noResponse => simp [runTriggers, runTrigger, result, ih]
    | responds closeFunction => simp [runTriggers, runTrigger, result, ih]

theorem registerCronTimes_spec (activation : Activation) (manager : ScheduledTaskManager)
    (cronTimes : List CronExpression) :
    ∃ count, (registerCronTimes activation manager cronTimes).1 = registerCrons manager activation.id count := by
  induction cronTimes generalizing manager with
  | nil => exact ⟨0, rfl⟩
  | cons cronTime rest ih =>
    by_cases short : isTooShort cronTime = true
    · exact ⟨0, by simp [registerCronTimes, short]⟩
    · cases error : activation.cronJobError cronTime with
      | some message => exact ⟨0, by simp [registerCronTimes, short, error]⟩
      | none =>
        obtain ⟨count, next⟩ := ih (manager.registerCron activation.id)
        exact ⟨count + 1, by simp [registerCronTimes, short, error, next, registerCrons_succ]⟩

theorem activatePolling_spec (activation : Activation) (manager : ScheduledTaskManager) (node : INode) :
    ∃ count, (activatePolling activation manager node).1 = registerCrons manager activation.id count := by
  unfold activatePolling
  split
  · exact ⟨0, rfl⟩
  · split
    · exact ⟨0, rfl⟩
    · exact registerCronTimes_spec activation manager _

theorem activatePollers_spec (activation : Activation)
    (triggerResponses : List ITriggerResponse) (active : ActiveWorkflows) (nodes : List INode) :
    ∃ count, (activatePollers workflowId activation triggerResponses active nodes).1 =
      { active with
        scheduledTaskManager := registerCrons active.scheduledTaskManager activation.id count
        activeWorkflows :=
          match (activatePollers workflowId activation triggerResponses active nodes).2 with
          | .ok () => active.activeWorkflows
          | .error _ =>
            if triggerResponses.length = 0 then active.activeWorkflows.erase workflowId
            else active.activeWorkflows } := by
  induction nodes generalizing active with
  | nil => exact ⟨0, rfl⟩
  | cons node rest ih =>
    obtain ⟨count, registered⟩ := activatePolling_spec activation active.scheduledTaskManager node
    cases outcome : activatePolling activation active.scheduledTaskManager node with
    | mk manager result =>
      rw [outcome] at registered
      cases result with
      | error message => exact ⟨count, by simp [activatePollers, outcome, ← registered]⟩
      | ok =>
        obtain ⟨count', next⟩ := ih { active with scheduledTaskManager := manager }
        refine ⟨count + count', ?_⟩
        simp only [activatePollers, outcome]
        rw [next, ← registerCrons_add, ← registered]

def started (active : ActiveWorkflows) (workflowId : WorkflowId) (activation : Activation) : List ITriggerResponse :=
  (active.add workflowId activation).1.responses.drop active.responses.length

/-- The call registers jobs, its triggers return responses, and the entry of the workflow is set, deleted or left. -/
theorem add_cases (active : ActiveWorkflows) (workflowId : WorkflowId) (activation : Activation) :
    ∃ count started,
      (active.add workflowId activation).1.scheduledTaskManager =
        registerCrons active.scheduledTaskManager activation.id count ∧
      (active.add workflowId activation).1.responses = active.responses ++ started ∧
      (active.add workflowId activation).1.closed = active.closed ∧
      ((TriggerThrows activation ∧ (∃ error, (active.add workflowId activation).2 = .error error) ∧
          (active.add workflowId activation).1.activeWorkflows = active.activeWorkflows) ∨
        (¬ TriggerThrows activation ∧ (active.add workflowId activation).1.activeWorkflows =
          match (active.add workflowId activation).2 with
          | .ok () => active.activeWorkflows.set workflowId { triggerResponses := started }
          | .error _ =>
            if started.length = 0 then
              (active.activeWorkflows.set workflowId { triggerResponses := started }).erase workflowId
            else active.activeWorkflows.set workflowId { triggerResponses := started })) := by
  obtain ⟨count, started, next, holds⟩ := runTriggers_spec activation active [] activation.triggerNodes
  have throws := runTriggers_throws_iff activation active [] activation.triggerNodes
  cases outcome : runTriggers activation active [] activation.triggerNodes with
  | mk middle result =>
    rw [outcome] at next holds throws
    obtain rfl : middle = _ := next
    cases result with
    | error error =>
      refine ⟨count, started, ?_, ?_, ?_, .inl ⟨throws.mp ⟨error, rfl⟩, ⟨error, ?_⟩, ?_⟩⟩ <;>
        simp only [add, outcome]
    | ok held =>
      obtain rfl : held = started := by simpa using holds held rfl
      obtain ⟨count', polled⟩ := activatePollers_spec workflowId activation held
        { active with
          scheduledTaskManager := registerCrons active.scheduledTaskManager activation.id count
          responses := active.responses ++ held
          activeWorkflows := active.activeWorkflows.set workflowId { triggerResponses := held } } activation.pollNodes
      have notThrows : ¬ TriggerThrows activation := fun triggerThrows => by
        obtain ⟨error, impossible⟩ := throws.mpr triggerThrows
        cases impossible
      refine ⟨count + count', held, ?_, ?_, ?_, .inr ⟨notThrows, ?_⟩⟩
      · simp only [add, outcome]
        rw [polled, registerCrons_add]
      · simp only [add, outcome]
        rw [polled]
      · simp only [add, outcome]
        rw [polled]
      · simp only [add, outcome]
        rw [polled]

end ActiveWorkflows

end N8n.Core
