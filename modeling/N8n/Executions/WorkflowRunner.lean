import Mathlib.Data.List.Infix
import N8n.Concurrency.ActiveExecutions
import N8n.Library.Runs

/-! # Running an execution

`packages/cli/src/workflow-runner.ts`: one call of `run` from the moment on at
which `add` has returned, with the workflow or the job that it starts.  Every
`await` is a stage, and so are the building and the start of the workflow, which
may throw.
-/

namespace N8n.Executions

open N8n.Concurrency (ExecutionStatus ExecutionsMode)

inductive ErrorClass where
  | executionNotFound
  | executionCancelled
  | maxStalledCount
  | other
deriving DecidableEq, Repr

structure ExecutionError where
  errorClass : ErrorClass
  message : String
deriving DecidableEq, Repr

def executionNotFoundError : ExecutionError where
  errorClass := .executionNotFound
  message := "No active execution found"

def maxStalledCountError : ExecutionError where
  errorClass := .maxStalledCount
  message := "This execution failed to be processed too many times and will no longer retry. To allow this " ++
    "execution to complete, please break down your workflow or scale up your workers or adjust your worker settings."

def ExecutionError.includes (error : ExecutionError) (text : String) : Bool :=
  decide (text.toList <:+: error.message.toList)

/-- The errors that `processError` takes for those of an execution that was cancelled and cleaned up. -/
def ExecutionError.wasCancelled (error : ExecutionError) : Bool :=
  error.errorClass = .executionNotFound || error.errorClass = .executionCancelled || error.includes "cancelled"

/-- Where `processError` was called. -/
inductive ProcessErrorCaller where
  /-- The `catch` block of `runMainProcess`. -/
  | runMainProcess
  /-- The handler of a workflow execution that was rejected. -/
  | workflowExecution
  /-- The `catch` block of `enqueueExecution`. -/
  | enqueueExecution
  /-- The workflow execution that waits for the job. -/
  | job
deriving DecidableEq, Repr

/-- What is awaited, or done next. -/
inductive RunStage where
  | checkPermissions
  /-- `workflowExecuteBefore` and `workflowExecuteAfter`, after the permissions were denied. -/
  | deniedBefore
  | deniedAfter
  | getStaticDataById
  | newWorkflow
  | getBase
  | setRunning
  /-- `processRunExecutionData` or `runManually`, up to the attachment of the workflow execution. -/
  | startWorkflow
  /-- The workflow runs in this process. -/
  | workflowExecution
  | importScalingService
  | addJob
  | workflowExecuteBefore
  | jobFinished
  /-- `findSingleExecution`, for a job that ended, or whose error has rejected the workflow execution. -/
  | findSingleExecution (rejected : Bool)
  | workflowExecuteAfter (rejected : Bool)
  /-- The lookup of `processError`. -/
  | sanityRun (caller : ProcessErrorCaller)
  /-- The hooks of `processError`. -/
  | errorHooks (caller : ProcessErrorCaller)
  /-- `run` has returned or thrown, the workflow execution it attached has settled, and its handlers have run. -/
  | ended
  /-- The workflow execution never settles. -/
  | hanging
deriving DecidableEq, Repr

/-- The hooks of the stage run after `finalizeExecution`. -/
def RunStage.isFinalised : RunStage → Bool
  | .errorHooks _ => true
  | .workflowExecuteAfter _ => true
  | _ => false

structure RunOptions where
  executionsMode : ExecutionsMode
  executionMode : WorkflowExecuteMode
  offloadManualExecutions : Bool
  loadStaticData : Bool
  workflowId : String
  hasResponsePromise : Bool
  /-- Whether an execution was enqueued before. -/
  scalingServiceLoaded : Bool
deriving DecidableEq, Repr

structure WorkflowRun where
  stage : RunStage
  /-- Whether the execution is in `activeExecutions`. -/
  present : Bool
  /-- Whether the `postExecutePromise` is settled. -/
  settled : Bool
deriving DecidableEq, Repr

/-- How an awaited step ends. -/
inductive Outcome where
  | returns
  | throws (error : ExecutionError)
  /-- A lookup returns the execution. -/
  | found (finished : Bool) (status : ExecutionStatus)
  /-- A lookup returns nothing. -/
  | notFound
deriving DecidableEq, Repr

inductive RunnerEvent where
  | goOn (outcome : Outcome)
  | stopExecution
  /-- The handler of the settled promise deletes the entry. -/
  | removed
deriving DecidableEq, Repr

def RunOptions.shouldEnqueue (options : RunOptions) : Bool :=
  if options.offloadManualExecutions then options.executionsMode = .queue
  else options.executionsMode = .queue && options.executionMode ≠ .manual

namespace WorkflowRun

def start : WorkflowRun where
  stage := .checkPermissions
  present := true
  settled := false

def goTo (run : WorkflowRun) (stage : RunStage) : WorkflowRun := { run with stage }

def finalizeExecution (run : WorkflowRun) : WorkflowRun :=
  if run.present then { run with settled := true } else run

/-- What follows when `processError` returns. -/
def afterProcessError (run : WorkflowRun) : ProcessErrorCaller → WorkflowRun
  | .job => run.goTo (.findSingleExecution true)
  | _ => run.goTo .ended

/-- What follows when `processError` throws. -/
def processErrorThrew (run : WorkflowRun) : ProcessErrorCaller → WorkflowRun
  | .job => run.goTo .hanging
  | _ => run.goTo .ended

/-- The rest of `processError`, for an execution that did fail. -/
def failExecution (run : WorkflowRun) (caller : ProcessErrorCaller) : WorkflowRun :=
  run.finalizeExecution.goTo (.errorHooks caller)

def processError (options : RunOptions) (run : WorkflowRun) (caller : ProcessErrorCaller) (error : ExecutionError) :
    WorkflowRun :=
  if error.wasCancelled then run.afterProcessError caller
  else if options.executionsMode = .queue then run.goTo (.sanityRun caller)
  else run.failExecution caller

def runMainProcess (options : RunOptions) (run : WorkflowRun) : WorkflowRun :=
  if options.loadStaticData && options.workflowId ≠ "" then run.goTo .getStaticDataById else run.goTo .newWorkflow

def enqueueExecution (options : RunOptions) (run : WorkflowRun) : WorkflowRun :=
  if options.scalingServiceLoaded then run.goTo .addJob else run.goTo .importScalingService

/-- `run` after the check of the permissions. -/
def permitted (options : RunOptions) (run : WorkflowRun) : WorkflowRun :=
  -- `attachResponsePromise` throws when the execution has gone
  if options.hasResponsePromise && !run.present then run.goTo .ended
  else if options.shouldEnqueue then run.enqueueExecution options
  else run.runMainProcess options

/-- The error of a job as `enqueueExecution` hands it on. -/
def jobError (error : ExecutionError) : ExecutionError :=
  if error.includes "job stalled more than maxStalledCount" then maxStalledCountError else error

def goOn (options : RunOptions) (run : WorkflowRun) (outcome : Outcome) : WorkflowRun :=
  match run.stage, outcome with
  | .checkPermissions, .returns => run.permitted options
  | .checkPermissions, .throws _ => run.goTo .deniedBefore
  | .deniedBefore, .returns => run.goTo .deniedAfter
  | .deniedBefore, .throws _ => run.goTo .ended
  | .deniedAfter, .returns => run.finalizeExecution.goTo .ended
  | .deniedAfter, .throws _ => run.goTo .ended
  | .getStaticDataById, .returns => run.goTo .newWorkflow
  | .getStaticDataById, .throws _ => run.goTo .ended
  | .newWorkflow, .returns => run.goTo .getBase
  | .newWorkflow, .throws _ => run.goTo .ended
  | .getBase, .returns => run.goTo .setRunning
  | .getBase, .throws _ => run.goTo .ended
  | .setRunning, .returns => run.goTo .startWorkflow
  | .setRunning, .throws _ => run.goTo .ended
  | .startWorkflow, .returns =>
    -- `attachWorkflowExecution` throws when the execution has gone
    if run.present then run.goTo .workflowExecution
    else run.processError options .runMainProcess executionNotFoundError
  | .startWorkflow, .throws error => run.processError options .runMainProcess error
  | .workflowExecution, .returns =>
    -- so does `getStatus`, and the handler of a rejection follows
    if run.present then run.finalizeExecution.goTo .ended
    else run.processError options .workflowExecution executionNotFoundError
  | .workflowExecution, .throws error => run.processError options .workflowExecution error
  | .importScalingService, .returns => run.goTo .addJob
  | .importScalingService, .throws _ => run.goTo .ended
  | .addJob, .returns => run.goTo .workflowExecuteBefore
  | .addJob, .throws error => run.processError options .enqueueExecution error
  -- the job is awaited whether or not `attachWorkflowExecution` throws
  | .workflowExecuteBefore, .returns => run.goTo .jobFinished
  | .workflowExecuteBefore, .throws error => run.processError options .enqueueExecution error
  | .jobFinished, .returns => run.goTo (.findSingleExecution false)
  | .jobFinished, .throws error => run.processError options .job (jobError error)
  | .findSingleExecution rejected, .found _ _ => run.finalizeExecution.goTo (.workflowExecuteAfter rejected)
  | .findSingleExecution _, .notFound => run.goTo .ended
  | .findSingleExecution rejected, .throws _ => run.goTo (if rejected then .ended else .hanging)
  | .workflowExecuteAfter _, .returns => run.goTo .ended
  | .workflowExecuteAfter rejected, .throws _ => run.goTo (if rejected then .ended else .hanging)
  | .sanityRun caller, .found finished status =>
    if finished && status = .success then run.afterProcessError caller else run.failExecution caller
  | .sanityRun caller, .notFound => run.failExecution caller
  | .sanityRun caller, .throws _ => run.processErrorThrew caller
  | .errorHooks caller, .returns => run.afterProcessError caller
  | .errorHooks caller, .throws _ => run.processErrorThrew caller
  | _, _ => run

def step (options : RunOptions) (run : WorkflowRun) : RunnerEvent → WorkflowRun
  | .goOn outcome => run.goOn options outcome
  | .stopExecution => if run.present then { run with settled := true } else run
  | .removed => if run.settled then { run with present := false } else run

def Finalised (run : WorkflowRun) : Prop := run.stage = .ended → run.settled = true

/-- The outcomes after which nothing settles the promise any more. -/
def Abandons : RunStage → Outcome → Prop
  | .deniedBefore, .throws _ => True
  | .deniedAfter, .throws _ => True
  | .getStaticDataById, .throws _ => True
  | .newWorkflow, .throws _ => True
  | .getBase, .throws _ => True
  | .setRunning, .throws _ => True
  | .importScalingService, .throws _ => True
  | .startWorkflow, .throws error => error.wasCancelled = true
  | .workflowExecution, .throws error => error.wasCancelled = true
  | .addJob, .throws error => error.wasCancelled = true
  | .workflowExecuteBefore, .throws error => error.wasCancelled = true
  | .sanityRun caller, .throws _ => caller ≠ .job
  | .sanityRun caller, .found finished status => caller ≠ .job ∧ finished = true ∧ status = .success
  | .findSingleExecution _, .notFound => True
  | .findSingleExecution rejected, .throws _ => rejected = true
  | _, _ => False

/-- An outcome that abandons the execution comes only after the promise has been settled. -/
def Settles (run : WorkflowRun) : RunnerEvent → Prop
  | .goOn outcome => Abandons run.stage outcome → run.settled = true
  | _ => True

/-! ## One step -/

/-- The promise is settled when the entry has gone, and where hooks run after `finalizeExecution`. -/
structure Consistent (run : WorkflowRun) : Prop where
  present : run.present = false → run.settled = true
  isFinalised : run.stage.isFinalised = true → run.settled = true

@[simp] theorem finalised_goTo (run : WorkflowRun) (stage : RunStage) :
    (run.goTo stage).Finalised ↔ (stage = .ended → run.settled = true) := Iff.rfl

variable {run : WorkflowRun}

theorem settled_finalizeExecution (consistent : run.Consistent) :
    run.finalizeExecution.settled = true := by
  unfold finalizeExecution
  split
  · rfl
  · rename_i gone
    exact consistent.present (by simpa using gone)

theorem finalised_afterProcessError (run : WorkflowRun) (caller : ProcessErrorCaller) :
    (run.afterProcessError caller).Finalised ↔ (caller ≠ .job → run.settled = true) := by
  cases caller <;> simp [afterProcessError]

theorem finalised_processErrorThrew (run : WorkflowRun) (caller : ProcessErrorCaller) :
    (run.processErrorThrew caller).Finalised ↔ (caller ≠ .job → run.settled = true) := by
  cases caller <;> simp [processErrorThrew]

theorem finalised_processError (options : RunOptions) (run : WorkflowRun) (caller : ProcessErrorCaller)
    (error : ExecutionError) :
    (run.processError options caller error).Finalised ↔
      (caller ≠ .job → error.wasCancelled = true → run.settled = true) := by
  unfold processError
  split
  · rename_i wasCancelled
    simp only [finalised_afterProcessError, wasCancelled, forall_const]
  · rename_i notCancelled
    refine iff_of_true ?_ fun _ wasCancelled => absurd wasCancelled notCancelled
    split
    · simp
    · simp [failExecution]

theorem finalised_permitted (consistent : run.Consistent) (options : RunOptions) :
    (run.permitted options).Finalised := by
  unfold permitted
  split
  · rename_i gone
    have absent : run.present = false := by simpa using (Bool.and_eq_true_iff.mp gone).2
    simpa using consistent.present absent
  · split
    · unfold enqueueExecution
      split <;> simp
    · unfold runMainProcess
      split <;> simp

theorem finalised_notFound (consistent : run.Consistent) (gone : ¬ run.present = true) (options : RunOptions)
    (caller : ProcessErrorCaller) :
    (run.processError options caller executionNotFoundError).Finalised :=
  (finalised_processError options run caller _).mpr fun _ _ => consistent.present (by simpa using gone)

theorem finalised_goOn_iff (consistent : run.Consistent) (finalised : run.Finalised) (options : RunOptions)
    (outcome : Outcome) :
    (run.goOn options outcome).Finalised ↔ (Abandons run.stage outcome → run.settled = true) := by
  have settles := settled_finalizeExecution consistent
  unfold goOn
  cases stage : run.stage with
  | checkPermissions =>
    cases outcome <;> simp [Abandons, finalised_permitted consistent, finalised]
  | deniedAfter => cases outcome <;> simp [Abandons, settles, finalised]
  | startWorkflow =>
    cases outcome with
    | returns =>
      refine iff_of_true ?_ fun abandons => abandons.elim
      simp only
      split
      · simp
      · rename_i gone
        exact finalised_notFound consistent gone options _
    | throws error => simp [Abandons, finalised_processError]
    | _ => simp [Abandons, finalised]
  | workflowExecution =>
    cases outcome with
    | returns =>
      refine iff_of_true ?_ fun abandons => abandons.elim
      simp only
      split
      · simpa using settles
      · rename_i gone
        exact finalised_notFound consistent gone options _
    | throws error => simp [Abandons, finalised_processError]
    | _ => simp [Abandons, finalised]
  | addJob => cases outcome <;> simp [Abandons, finalised_processError, finalised]
  | workflowExecuteBefore => cases outcome <;> simp [Abandons, finalised_processError, finalised]
  | jobFinished => cases outcome <;> simp [Abandons, finalised_processError, finalised]
  | findSingleExecution rejected =>
    cases outcome with
    | throws error => cases rejected <;> simp [Abandons]
    | _ => simp [Abandons, finalised]
  | workflowExecuteAfter rejected =>
    have settled := consistent.isFinalised (by rw [stage]; rfl)
    cases outcome <;> simp [Abandons, settled, finalised]
  | sanityRun caller =>
    cases outcome with
    | returns => simp [Abandons, finalised]
    | throws error => simp [Abandons, finalised_processErrorThrew]
    | found finished status =>
      by_cases succeeded : finished = true ∧ status = .success
      · simp [Abandons, finalised_afterProcessError, succeeded]
      · simp [Abandons, failExecution, succeeded]
    | notFound => simp [Abandons, failExecution]
  | errorHooks caller =>
    have settled := consistent.isFinalised (by rw [stage]; rfl)
    cases outcome <;> simp [Abandons, settled, finalised_afterProcessError, finalised_processErrorThrew, finalised]
  | _ => cases outcome <;> simp [Abandons, finalised]

/-! ## Every step -/

theorem consistent_goTo (consistent : run.Consistent) {stage : RunStage} (notFinalised : stage.isFinalised = false) :
    (run.goTo stage).Consistent :=
  ⟨consistent.present, fun isFinalised => by simp [goTo, notFinalised] at isFinalised⟩

theorem consistent_finalizeExecution (consistent : run.Consistent) (stage : RunStage) :
    (run.finalizeExecution.goTo stage).Consistent :=
  ⟨fun _ => settled_finalizeExecution consistent, fun _ => settled_finalizeExecution consistent⟩

theorem consistent_afterProcessError (consistent : run.Consistent) (caller : ProcessErrorCaller) :
    (run.afterProcessError caller).Consistent := by
  cases caller <;> exact consistent_goTo consistent rfl

theorem consistent_processErrorThrew (consistent : run.Consistent) (caller : ProcessErrorCaller) :
    (run.processErrorThrew caller).Consistent := by
  cases caller <;> exact consistent_goTo consistent rfl

theorem consistent_processError (consistent : run.Consistent) (options : RunOptions) (caller : ProcessErrorCaller)
    (error : ExecutionError) :
    (run.processError options caller error).Consistent := by
  unfold processError
  split
  · exact consistent_afterProcessError consistent caller
  · split
    · exact consistent_goTo consistent rfl
    · exact consistent_finalizeExecution consistent (.errorHooks caller)

theorem consistent_permitted (consistent : run.Consistent) (options : RunOptions) :
    (run.permitted options).Consistent := by
  unfold permitted
  split
  · exact consistent_goTo consistent rfl
  · split
    · unfold enqueueExecution
      split <;> exact consistent_goTo consistent rfl
    · unfold runMainProcess
      split <;> exact consistent_goTo consistent rfl

theorem consistent_goOn (consistent : run.Consistent) (options : RunOptions) (outcome : Outcome) :
    (run.goOn options outcome).Consistent := by
  unfold goOn
  cases run.stage with
  | checkPermissions =>
    cases outcome with
    | returns => exact consistent_permitted consistent options
    | throws error => exact consistent_goTo consistent rfl
    | _ => exact consistent
  | startWorkflow =>
    cases outcome with
    | returns =>
      simp only
      split
      · exact consistent_goTo consistent rfl
      · exact consistent_processError consistent options _ _
    | throws error => exact consistent_processError consistent options _ error
    | _ => exact consistent
  | workflowExecution =>
    cases outcome with
    | returns =>
      simp only
      split
      · exact consistent_finalizeExecution consistent .ended
      · exact consistent_processError consistent options _ _
    | throws error => exact consistent_processError consistent options _ error
    | _ => exact consistent
  | findSingleExecution rejected =>
    cases outcome with
    | returns => exact consistent
    | throws error => cases rejected <;> exact consistent_goTo consistent rfl
    | found finished status => exact consistent_finalizeExecution consistent _
    | notFound => exact consistent_goTo consistent rfl
  | workflowExecuteAfter rejected =>
    cases outcome with
    | returns => exact consistent_goTo consistent rfl
    | throws error => cases rejected <;> exact consistent_goTo consistent rfl
    | _ => exact consistent
  | sanityRun caller =>
    cases outcome with
    | returns => exact consistent
    | throws error => exact consistent_processErrorThrew consistent caller
    | found finished status =>
      simp only
      split
      · exact consistent_afterProcessError consistent caller
      · exact consistent_finalizeExecution consistent (.errorHooks caller)
    | notFound => exact consistent_finalizeExecution consistent (.errorHooks caller)
  | errorHooks caller =>
    cases outcome with
    | returns => exact consistent_afterProcessError consistent caller
    | throws error => exact consistent_processErrorThrew consistent caller
    | _ => exact consistent
  | _ =>
    cases outcome <;>
      first
      | exact consistent_goTo consistent rfl
      | exact consistent_finalizeExecution consistent _
      | exact consistent_processError consistent options _ _
      | exact consistent

theorem consistent_step {run : WorkflowRun} (consistent : run.Consistent) (options : RunOptions)
    (event : RunnerEvent) : (run.step options event).Consistent := by
  cases event with
  | goOn outcome => exact consistent_goOn consistent options outcome
  | stopExecution =>
    simp only [step]
    split
    · exact ⟨fun _ => rfl, fun _ => rfl⟩
    · exact consistent
  | removed =>
    simp only [step]
    split
    · rename_i settled
      exact ⟨fun _ => settled, fun _ => settled⟩
    · exact consistent

theorem finalised_step_iff (consistent : run.Consistent) (finalised : run.Finalised) (options : RunOptions)
    (event : RunnerEvent) :
    (run.step options event).Finalised ↔ run.Settles event := by
  cases event with
  | goOn outcome => exact finalised_goOn_iff consistent finalised options outcome
  | stopExecution =>
    refine iff_of_true ?_ trivial
    simp only [step]
    split
    · exact fun _ => rfl
    · exact finalised
  | removed =>
    refine iff_of_true ?_ trivial
    simp only [step]
    split
    · rename_i settled
      exact fun _ => settled
    · exact finalised

/-- Once `run` has ended, and the workflow execution with it, the promise of the execution is settled exactly if no
outcome abandons the execution before it is. -/
theorem always_finalised_iff (options : RunOptions) (events : List RunnerEvent) :
    Runs.Always (step options) Finalised start events ↔ Runs.Every (step options) Settles start events :=
  @Runs.always_iff_every_of_kept _ _ (step options) Settles Consistent Finalised
    (fun _ event consistent => consistent_step consistent options event)
    (fun _ event consistent finalised => finalised_step_iff consistent finalised options event) _
    ⟨fun gone => (by cases gone), fun isFinalised => (by cases isFinalised)⟩ (fun ended => (by cases ended)) events

/-- `setRunning` throws in the main process, where no `try` is around it; and a job fails with a message that says
"cancelled" and cannot be looked up. -/
theorem not_always_finalised :
    ¬ Runs.Always (step { executionsMode := .regular, executionMode := .webhook, offloadManualExecutions := false,
                          loadStaticData := false, workflowId := "1", hasResponsePromise := false,
                          scalingServiceLoaded := false }) Finalised start
      [.goOn .returns, .goOn .returns, .goOn .returns,
        .goOn (.throws { errorClass := .other, message := "SQLITE_BUSY" })] ∧
    ¬ Runs.Always (step { executionsMode := .queue, executionMode := .webhook, offloadManualExecutions := false,
                          loadStaticData := false, workflowId := "1", hasResponsePromise := false,
                          scalingServiceLoaded := true }) Finalised start
      [.goOn .returns, .goOn .returns, .goOn .returns,
        .goOn (.throws { errorClass := .other, message := "request was cancelled" }), .goOn .notFound] := by
  constructor
  · intro always
    have settled := always.final rfl
    revert settled
    decide
  · intro always
    have settled := always.final (by decide)
    revert settled
    decide

end WorkflowRun

end N8n.Executions
