import N8n.Library.Numbered
import N8n.Library.OrderedMap

/-! # Waiting executions

`packages/cli/src/wait-tracker.ts` on one instance, with the timers of the
process and the rows of the database that the polls look for.  A poll and a
call of `startExecution` stop at every `await`; polls, timers and calls are
numbered in their order.
-/

namespace N8n.Executions

abbrev ExecutionId := String

inductive TimerStatus where
  | armed
  | cleared
  | fired
deriving DecidableEq, Repr

/-- A timer that `setTimeout` returned, with the execution that it starts. -/
structure Timer where
  executionId : ExecutionId
  status : TimerStatus
deriving DecidableEq, Repr

/-- A call of `getWaitingExecutions`. -/
inductive Poll where
  | querying
  /-- The database has answered. -/
  | answered (executionIds : List ExecutionId)
  | ended
deriving DecidableEq, Repr

inductive ResumeStage where
  /-- `findSingleExecution` is awaited. -/
  | loading
  /-- `getWorkflowProjectCached` is awaited. -/
  | loadingProject
  /-- `run` was called, or the call threw. -/
  | left
deriving DecidableEq, Repr

/-- A call of `startExecution`. -/
structure Resume where
  executionId : ExecutionId
  stage : ResumeStage
deriving DecidableEq, Repr

structure WaitTracker where
  /-- The number of the timer of each entry. -/
  waitingExecutions : OrderedMap ExecutionId Nat
  timers : List Timer
  /-- Whether the instance leads, from `startTracking` to `stopTracking`. -/
  tracking : Bool
  polls : List Poll
  /-- What the last poll returned, without the executions that were started or stopped since. -/
  returned : List ExecutionId
  resumes : List Resume
  /-- The executions whose row is waiting. -/
  waiting : List ExecutionId
  /-- The calls of `run` for executions that wait, since they were put to wait. -/
  runs : List ExecutionId

inductive WaitEvent where
  | leaderTakeover
  | leaderStepdown
  /-- The interval of the main timer is over. -/
  | poll
  /-- The query of a poll sees these executions, those of them that wait. -/
  | answer (poll : Nat) (executionIds : List ExecutionId)
  | pollReturns (poll : Nat)
  | pollThrows (poll : Nat)
  | timerFires (timer : Nat)
  | startExecution (executionId : ExecutionId)
  | stopExecution (executionId : ExecutionId)
  /-- `findSingleExecution` settles, and the checks on the execution pass or throw. -/
  | loaded (resume : Nat) (succeeds : Bool)
  | projectLoaded (resume : Nat) (succeeds : Bool)
  /-- The row stops being waiting: `add` has updated it, or the execution was stopped or deleted. -/
  | rowUpdated (executionId : ExecutionId)
  | putToWait (executionId : ExecutionId)
deriving DecidableEq, Repr

def Timer.clear (timer : Timer) : Timer :=
  match timer.status with
  | .armed => { timer with status := .cleared }
  | _ => timer

@[simp] theorem Timer.clear_clear (timer : Timer) : timer.clear.clear = timer.clear := by
  obtain ⟨executionId, status⟩ := timer
  cases status <;> rfl

namespace WaitTracker

def new : WaitTracker where
  waitingExecutions := ∅
  timers := []
  tracking := false
  polls := []
  returned := []
  resumes := []
  waiting := []
  runs := []

def has (tracker : WaitTracker) (executionId : ExecutionId) : Bool := tracker.waitingExecutions.has executionId

def beginPoll (tracker : WaitTracker) : WaitTracker := { tracker with polls := tracker.polls ++ [.querying] }

def startTracking (tracker : WaitTracker) : WaitTracker := { tracker with tracking := true }.beginPoll

/-- The entries stay. -/
def stopTracking (tracker : WaitTracker) : WaitTracker :=
  { tracker with
    tracking := false
    timers := tracker.waitingExecutions.values.foldl (fun timers timer => timers.modify timer Timer.clear)
      tracker.timers }

/-- One turn of the loop of `getWaitingExecutions`. -/
def setTimer (tracker : WaitTracker) (executionId : ExecutionId) : WaitTracker :=
  match tracker.waitingExecutions.get? executionId with
  | some _ => tracker
  | none =>
    { tracker with
      waitingExecutions := tracker.waitingExecutions.set executionId tracker.timers.length
      timers := tracker.timers ++ [{ executionId, status := .armed }] }

/-- The rest of `getWaitingExecutions` after its query. -/
def setTimers (tracker : WaitTracker) (executionIds : List ExecutionId) : WaitTracker :=
  executionIds.foldl setTimer { tracker with returned := executionIds }

def stopExecution (tracker : WaitTracker) (executionId : ExecutionId) : WaitTracker :=
  match tracker.waitingExecutions.get? executionId with
  | none => tracker
  | some timer =>
    { tracker with
      timers := tracker.timers.modify timer Timer.clear
      waitingExecutions := tracker.waitingExecutions.erase executionId
      returned := tracker.returned.filter (· ≠ executionId) }

/-- `startExecution` up to its first `await`. -/
def startExecution (tracker : WaitTracker) (executionId : ExecutionId) : WaitTracker :=
  { tracker with
    waitingExecutions := tracker.waitingExecutions.erase executionId
    resumes := tracker.resumes ++ [{ executionId, stage := .loading }]
    returned := tracker.returned.filter (· ≠ executionId) }

def withStage (tracker : WaitTracker) (resume : Nat) (stage : ResumeStage) : WaitTracker :=
  { tracker with resumes := tracker.resumes.modify resume fun entry => { entry with stage } }

def endPoll (tracker : WaitTracker) (poll : Nat) : WaitTracker :=
  { tracker with polls := tracker.polls.modify poll fun _ => .ended }

/-- Only the calls while the row waits are counted. -/
def run (tracker : WaitTracker) (executionId : ExecutionId) : WaitTracker :=
  if executionId ∈ tracker.waiting then { tracker with runs := tracker.runs ++ [executionId] } else tracker

def step (tracker : WaitTracker) : WaitEvent → WaitTracker
  | .leaderTakeover => tracker.startTracking
  | .leaderStepdown => tracker.stopTracking
  | .poll => tracker.beginPoll
  | .answer poll executionIds =>
    match tracker.polls[poll]? with
    | some .querying =>
      { tracker with
        polls := tracker.polls.modify poll fun _ => .answered (executionIds.filter (· ∈ tracker.waiting)) }
    | _ => tracker
  | .pollReturns poll =>
    match tracker.polls[poll]? with
    | some (.answered executionIds) => (tracker.endPoll poll).setTimers executionIds
    | _ => tracker
  | .pollThrows poll =>
    match tracker.polls[poll]? with
    | some .ended | none => tracker
    | some _ => { tracker.endPoll poll with returned := [] }
  | .timerFires timer =>
    match tracker.timers[timer]? with
    | some { executionId, status := .armed } =>
      { tracker with
        timers := tracker.timers.modify timer fun entry => { entry with status := .fired } }.startExecution executionId
    | _ => tracker
  | .startExecution executionId => tracker.startExecution executionId
  | .stopExecution executionId => tracker.stopExecution executionId
  | .loaded resume succeeds =>
    match tracker.resumes[resume]? with
    | some { stage := .loading, .. } =>
      tracker.withStage resume (if succeeds then .loadingProject else .left)
    | _ => tracker
  | .projectLoaded resume succeeds =>
    match tracker.resumes[resume]? with
    | some { stage := .loadingProject, executionId } =>
      if succeeds then (tracker.withStage resume .left).run executionId else tracker.withStage resume .left
    | _ => tracker
  | .rowUpdated executionId => { tracker with waiting := tracker.waiting.filter (· ≠ executionId) }
  | .putToWait executionId =>
    if executionId ∈ tracker.waiting then tracker
    else { tracker with
      waiting := tracker.waiting ++ [executionId]
      runs := tracker.runs.filter (· ≠ executionId) }

end WaitTracker

end N8n.Executions
