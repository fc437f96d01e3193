import N8n.Concurrency.ActiveExecutions
import N8n.Library.Runs
import Mathlib.Data.List.Dedup
import Mathlib.Data.List.Sort

/-! # Queue recovery

`recoverFromQueue` of `packages/cli/src/scaling/scaling.service.ts`, between
the database and the queue.  A check reads first one and then the other, and
the executions go their way meanwhile.
-/

namespace N8n.Scaling

open N8n.Concurrency (ExecutionId ExecutionStatus)

structure ExecutionEntity where
  id : ExecutionId
  status : ExecutionStatus
  startedAt : Option Nat
deriving DecidableEq, Repr

def ExecutionEntity.inProgress (execution : ExecutionEntity) : Bool :=
  execution.status = .new || execution.status = .running

structure QueueRecoveryContext where
  batchSize : Nat
  waitMs : Nat
  /-- Whether the database puts null first where it sorts from the last to the first. -/
  nullsFirst : Bool
deriving DecidableEq, Repr

/-- A call of `recoverFromQueue`. -/
structure RecoveryCheck where
  storedIds : List ExecutionId
  /-- What the call is about to mark, once it has read the queue. -/
  danglingIds : Option (List ExecutionId)
  /-- The executions of the batch that have been dangling since it was read. -/
  throughout : List ExecutionId
deriving DecidableEq, Repr

/-- An execution that was marked, as it was when the update came. -/
structure Marking where
  inProgress : Bool
  hasJob : Bool
  toBeEnqueued : Bool
deriving DecidableEq, Repr

structure ScalingService where
  executions : List ExecutionEntity
  /-- The ids that the database has given out. -/
  createdIds : List ExecutionId
  /-- The executions of the jobs that are active or waiting. -/
  jobs : List ExecutionId
  /-- The executions that their creators are about to enqueue. -/
  toBeEnqueued : List ExecutionId
  checks : List RecoveryCheck
  marked : List Marking
  /-- What was dangling throughout a check and was not marked by it. -/
  missed : List ExecutionId
  /-- The times until the next check that the calls have returned. -/
  waits : List Nat

inductive ScalingEvent where
  /-- `createNewExecution`; a manual execution is not always enqueued. -/
  | create (id : ExecutionId) (byQueue : Bool)
  /-- `updateExistingExecution`: the execution is resumed. -/
  | resume (id : ExecutionId) (byQueue : Bool)
  | addJob (id : ExecutionId)
  /-- The creator fails before it has added the job. -/
  | giveUp (id : ExecutionId)
  | setRunning (id : ExecutionId) (startedAt : Nat)
  /-- A status is saved, such as that of the result. -/
  | save (id : ExecutionId) (status : ExecutionStatus)
  | removeJob (id : ExecutionId)
  | delete (id : ExecutionId)
  | getInProgressExecutionIds
  | findJobsByStatus (check : Nat)
  | markAsCrashed (check : Nat)
deriving DecidableEq, Repr

/-- Whether one execution comes before another one from the last `startedAt` to the first. -/
def startedNoEarlier (context : QueueRecoveryContext) (execution other : ExecutionEntity) : Bool :=
  match execution.startedAt, other.startedAt with
  | some startedAt, some otherStartedAt => otherStartedAt ≤ startedAt
  | none, none => true
  | none, some _ => context.nullsFirst
  | some _, none => !context.nullsFirst

def getInProgressExecutionIds (context : QueueRecoveryContext) (executions : List ExecutionEntity) :
    List ExecutionId :=
  (((executions.filter ExecutionEntity.inProgress).insertionSort fun execution other =>
    startedNoEarlier context execution other = true).take context.batchSize).map ExecutionEntity.id

def markAsCrashed (executions : List ExecutionEntity) (executionIds : List ExecutionId) : List ExecutionEntity :=
  executions.map fun execution =>
    if executionIds.contains execution.id then { execution with status := .crashed } else execution

namespace ScalingService

def start : ScalingService where
  executions := []
  createdIds := []
  jobs := []
  toBeEnqueued := []
  checks := []
  marked := []
  missed := []
  waits := []

def setStatus (service : ScalingService) (id : ExecutionId) (status : ExecutionStatus) : ScalingService :=
  { service with
    executions := service.executions.map fun execution =>
      if execution.id = id then { execution with status } else execution }

def unattended (service : ScalingService) (id : ExecutionId) : Bool :=
  !service.jobs.contains id && !service.toBeEnqueued.contains id

/-- The execution is in progress, has no job and gets none. -/
def dangling (service : ScalingService) (id : ExecutionId) : Bool :=
  service.executions.any (fun execution => execution.id = id && execution.inProgress) && service.unattended id

/-- The executions that have ceased to be dangling are not dangling throughout the checks any more. -/
def observe (service : ScalingService) : ScalingService :=
  { service with
    checks := service.checks.map fun check => { check with throughout := check.throughout.filter service.dangling } }

/-- The check returns.  It has missed what was dangling throughout and is not marked as crashed. -/
def completed (service : ScalingService) (number : Nat) (check : RecoveryCheck) (waitMs : Nat) : ScalingService :=
  { service with
    checks := service.checks.eraseIdx number
    missed := service.missed ++ check.throughout.filter fun id =>
      !service.executions.any fun execution => execution.id = id && execution.status = .crashed
    waits := service.waits ++ [waitMs] }

/-- The first read of a check. -/
def begin (context : QueueRecoveryContext) (service : ScalingService) : ScalingService :=
  let storedIds := getInProgressExecutionIds context service.executions
  if storedIds.length = 0 then { service with waits := service.waits ++ [context.waitMs] }
  else { service with checks := service.checks ++ [{ storedIds, danglingIds := none, throughout := storedIds }] }

def readQueue (context : QueueRecoveryContext) (service : ScalingService) (number : Nat) (check : RecoveryCheck) :
    ScalingService :=
  let queuedIds := service.jobs.dedup
  let danglingIds := check.storedIds.filter fun id => !queuedIds.contains id
  if queuedIds.length = 0 then service.completed number check context.waitMs
  else if danglingIds.length = 0 then service.completed number check context.waitMs
  else { service with checks := service.checks.set number { check with danglingIds := some danglingIds } }

def markings (service : ScalingService) (danglingIds : List ExecutionId) : List Marking :=
  (service.executions.filter fun execution => danglingIds.contains execution.id).map fun execution =>
    { inProgress := execution.inProgress
      hasJob := service.jobs.contains execution.id
      toBeEnqueued := service.toBeEnqueued.contains execution.id }

def recover (context : QueueRecoveryContext) (service : ScalingService) (number : Nat) (check : RecoveryCheck)
    (danglingIds : List ExecutionId) : ScalingService :=
  let updated : ScalingService :=
    { service with
      executions := markAsCrashed service.executions danglingIds
      marked := service.marked ++ service.markings danglingIds }
  updated.completed number check
    (if check.storedIds.length ≥ context.batchSize then context.waitMs / 2 else context.waitMs)

def act (context : QueueRecoveryContext) (service : ScalingService) : ScalingEvent → ScalingService
  | .create id byQueue =>
    if service.createdIds.contains id then service
    else
      { service with
        executions := service.executions ++ [{ id, status := .new, startedAt := none }]
        createdIds := service.createdIds ++ [id]
        toBeEnqueued := if byQueue then service.toBeEnqueued ++ [id] else service.toBeEnqueued }
  | .resume id byQueue =>
    { service.setStatus id .running with
      toBeEnqueued := if byQueue then service.toBeEnqueued ++ [id] else service.toBeEnqueued }
  | .addJob id =>
    if service.toBeEnqueued.contains id then
      { service with jobs := service.jobs ++ [id], toBeEnqueued := service.toBeEnqueued.erase id }
    else service
  | .giveUp id => { service with toBeEnqueued := service.toBeEnqueued.erase id }
  | .setRunning id startedAt =>
    { service with
      executions := service.executions.map fun execution =>
        if execution.id = id then { execution with status := .running, startedAt := some startedAt } else execution }
  | .save id status => service.setStatus id status
  | .removeJob id => { service with jobs := service.jobs.erase id }
  | .delete id => { service with executions := service.executions.filter fun execution => execution.id ≠ id }
  | .getInProgressExecutionIds => service.begin context
  | .findJobsByStatus number =>
    match service.checks[number]? with
    | some check => if check.danglingIds.isNone then service.readQueue context number check else service
    | none => service
  | .markAsCrashed number =>
    match service.checks[number]? with
    | some check =>
      match check.danglingIds with
      | some danglingIds => service.recover context number check danglingIds
      | none => service
    | none => service

def step (context : QueueRecoveryContext) (service : ScalingService) (event : ScalingEvent) : ScalingService :=
  (service.act context event).observe

/-- Only what is dangling is marked, and whatever was dangling throughout a check is. -/
structure RecoversDangling (service : ScalingService) : Prop where
  marked : ∀ marking ∈ service.marked, marking.inProgress = true ∧ marking.hasJob = false ∧
    marking.toBeEnqueued = false
  missed : service.missed = []

def NotToBeMarked (service : ScalingService) (id : ExecutionId) : Prop :=
  ∀ check ∈ service.checks, ∀ danglingIds, check.danglingIds = some danglingIds → id ∉ danglingIds

/-- A check that reads the queue while it is empty has no execution that has been dangling throughout; one that finds a
job finds no execution of its batch without a job that has ended or is about to be enqueued; and no execution that a
check is about to mark ends or is resumed before. -/
def Undisturbed (service : ScalingService) : ScalingEvent → Prop
  | .resume id byQueue => byQueue = true → service.NotToBeMarked id
  | .save id status => (status = .new ∨ status = .running) ∨ service.NotToBeMarked id
  | .findJobsByStatus number => ∀ check, service.checks[number]? = some check → check.danglingIds = none →
    (service.jobs = [] → check.throughout = []) ∧
      (service.jobs ≠ [] → ∀ execution ∈ service.executions, execution.id ∈ check.storedIds →
        execution.id ∉ service.jobs → execution.inProgress = true ∧ execution.id ∉ service.toBeEnqueued)
  | .markAsCrashed number => ∀ check danglingIds, service.checks[number]? = some check →
    check.danglingIds = some danglingIds →
      ∀ other ∈ service.checks.eraseIdx number, ∀ otherIds, other.danglingIds = some otherIds →
        ∀ id ∈ danglingIds, id ∉ otherIds
  | _ => True

/-! ## What a check relies on -/

def MayMark (service : ScalingService) (danglingIds : List ExecutionId) : Prop :=
  ∀ execution ∈ service.executions, execution.id ∈ danglingIds →
    execution.inProgress = true ∧ execution.id ∉ service.jobs ∧ execution.id ∉ service.toBeEnqueued

structure Prepared (service : ScalingService) (check : RecoveryCheck) : Prop where
  stored : ∀ id ∈ check.storedIds, id ∈ service.createdIds
  throughout : ∀ id ∈ check.throughout, id ∈ check.storedIds
  dangling : ∀ danglingIds, check.danglingIds = some danglingIds →
    (∀ id ∈ danglingIds, id ∈ check.storedIds) ∧ (∀ id ∈ check.throughout, id ∈ danglingIds) ∧
      service.MayMark danglingIds

structure Consistent (service : ScalingService) : Prop where
  created : ∀ execution ∈ service.executions, execution.id ∈ service.createdIds
  prepared : ∀ check ∈ service.checks, service.Prepared check
  recovers : service.RecoversDangling

/-- What is still noted as dangling throughout a check is dangling. -/
def Observed (service : ScalingService) : Prop :=
  ∀ check ∈ service.checks, ∀ id ∈ check.throughout, service.dangling id = true

theorem observed_observe (service : ScalingService) : service.observe.Observed := by
  intro check member id isThroughout
  obtain ⟨before, _, rfl⟩ := List.mem_map.mp member
  exact (List.mem_filter.mp isThroughout).2

variable {service : ScalingService}

theorem consistent_observe (consistent : service.Consistent) :
    service.observe.Consistent := by
  refine ⟨consistent.created, fun check member => ?_, ⟨consistent.recovers.marked, consistent.recovers.missed⟩⟩
  obtain ⟨before, isBefore, rfl⟩ := List.mem_map.mp member
  have prepared := consistent.prepared before isBefore
  refine ⟨prepared.stored, fun id isThroughout => prepared.throughout id (List.mem_of_mem_filter isThroughout),
    fun danglingIds isDangling => ?_⟩
  obtain ⟨within, covered, mayMark⟩ := prepared.dangling danglingIds isDangling
  exact ⟨within, fun id isThroughout => covered id (List.mem_of_mem_filter isThroughout), mayMark⟩

variable {service after : ScalingService}

theorem prepared_of_mayMark {check : RecoveryCheck} (prepared : service.Prepared check)
    (grows : ∀ id ∈ service.createdIds, id ∈ after.createdIds)
    (mayMark : ∀ danglingIds, check.danglingIds = some danglingIds → (∀ id ∈ danglingIds, id ∈ service.createdIds) →
      service.MayMark danglingIds → after.MayMark danglingIds) : after.Prepared check := by
  refine ⟨fun id isStored => grows id (prepared.stored id isStored), prepared.throughout,
    fun danglingIds isDangling => ?_⟩
  obtain ⟨within, covered, may⟩ := prepared.dangling danglingIds isDangling
  have known (id : ExecutionId) (isId : id ∈ danglingIds) := prepared.stored id (within id isId)
  exact ⟨within, covered, mayMark danglingIds isDangling known may⟩

theorem consistent_of_mayMark (consistent : service.Consistent)
    (created : ∀ execution ∈ after.executions, execution.id ∈ after.createdIds)
    (grows : ∀ id ∈ service.createdIds, id ∈ after.createdIds) (sameChecks : after.checks = service.checks)
    (sameMarked : after.marked = service.marked) (sameMissed : after.missed = service.missed)
    (mayMark : ∀ check ∈ service.checks, ∀ danglingIds, check.danglingIds = some danglingIds →
      (∀ id ∈ danglingIds, id ∈ service.createdIds) → service.MayMark danglingIds → after.MayMark danglingIds) :
    after.Consistent := by
  refine ⟨created, fun check member => ?_, ?_, ?_⟩
  · rw [sameChecks] at member
    exact prepared_of_mayMark (consistent.prepared check member) grows (mayMark check member)
  · rw [sameMarked]
    exact consistent.recovers.marked
  · rw [sameMissed]
    exact consistent.recovers.missed

theorem mem_changed {executions : List ExecutionEntity} {id : ExecutionId}
    {change : ExecutionEntity → ExecutionEntity} {execution : ExecutionEntity}
    (member : execution ∈ executions.map fun execution => if execution.id = id then change execution else execution) :
    ∃ before ∈ executions, execution = before ∨ before.id = id ∧ execution = change before := by
  obtain ⟨before, isBefore, rfl⟩ := List.mem_map.mp member
  by_cases isId : before.id = id
  · exact ⟨before, isBefore, .inr ⟨isId, if_pos isId⟩⟩
  · exact ⟨before, isBefore, .inl (if_neg isId)⟩

/-! ## The ways of the executions -/

variable {danglingIds : List ExecutionId}

theorem mayMark_of_subset
    (mayMark : service.MayMark danglingIds) (executions : after.executions ⊆ service.executions)
    (jobs : after.jobs ⊆ service.jobs) (toBeEnqueued : after.toBeEnqueued ⊆ service.toBeEnqueued) :
    after.MayMark danglingIds := by
  intro execution member isDangling
  obtain ⟨inProgress, noJob, notToBe⟩ := mayMark execution (executions member) isDangling
  exact ⟨inProgress, fun isJob => noJob (jobs isJob), fun toBe => notToBe (toBeEnqueued toBe)⟩

theorem consistent_change {service : ScalingService} (consistent : service.Consistent) (id : ExecutionId)
    {change : ExecutionEntity → ExecutionEntity} (sameId : ∀ execution, (change execution).id = execution.id)
    (goesOn : (∀ execution, (change execution).inProgress = true) ∨ service.NotToBeMarked id) :
    Consistent { service with
      executions := service.executions.map fun execution =>
        if execution.id = id then change execution else execution } := by
  refine consistent_of_mayMark consistent ?_ (fun _ isCreated => isCreated) rfl rfl rfl
    fun check member danglingIds isDangling _ mayMark => ?_
  · intro execution member
    obtain ⟨before, isBefore, rfl | ⟨_, rfl⟩⟩ := mem_changed member
    · exact consistent.created _ isBefore
    · rw [sameId]
      exact consistent.created before isBefore
  · intro execution isExecution isMarked
    obtain ⟨before, isBefore, rfl | ⟨isId, rfl⟩⟩ := mem_changed isExecution
    · exact mayMark _ isBefore isMarked
    · rw [sameId] at isMarked ⊢
      obtain ⟨_, alone⟩ := mayMark before isBefore isMarked
      cases goesOn with
      | inl inProgress => exact ⟨inProgress before, alone⟩
      | inr notToBeMarked =>
        rw [isId] at isMarked
        exact absurd isMarked (notToBeMarked check member danglingIds isDangling)

theorem consistent_enqueueing (consistent : service.Consistent) {id : ExecutionId}
    (notToBeMarked : service.NotToBeMarked id) :
    Consistent { service with toBeEnqueued := service.toBeEnqueued ++ [id] } := by
  refine consistent_of_mayMark consistent consistent.created (fun _ isCreated => isCreated) rfl rfl rfl
    fun check member danglingIds isDangling _ mayMark execution isExecution isMarked => ?_
  obtain ⟨inProgress, noJob, notToBe⟩ := mayMark execution isExecution isMarked
  refine ⟨inProgress, noJob, fun toBe => ?_⟩
  rcases List.mem_append.mp toBe with before | added
  · exact notToBe before
  · rw [List.mem_singleton.mp added] at isMarked
    exact notToBeMarked check member danglingIds isDangling isMarked

theorem consistent_create (consistent : service.Consistent) {id : ExecutionId}
    (fresh : id ∉ service.createdIds) :
    Consistent { service with
      executions := service.executions ++ [{ id, status := .new, startedAt := none }]
      createdIds := service.createdIds ++ [id] } := by
  refine consistent_of_mayMark consistent ?_ (fun _ isCreated => List.mem_append_left _ isCreated) rfl rfl rfl
    fun check member danglingIds isDangling known mayMark execution isExecution isMarked => ?_
  · intro execution member
    rcases List.mem_append.mp member with before | added
    · exact List.mem_append_left _ (consistent.created execution before)
    · rw [List.mem_singleton.mp added]
      exact List.mem_append_right _ (List.mem_singleton.mpr rfl)
  · rcases List.mem_append.mp isExecution with before | added
    · exact mayMark execution before isMarked
    · rw [List.mem_singleton.mp added] at isMarked
      exact absurd (known id isMarked) fresh

theorem notToBeMarked_of_fresh (consistent : service.Consistent) {id : ExecutionId}
    (fresh : id ∉ service.createdIds) : service.NotToBeMarked id := by
  intro check member danglingIds isDangling isMarked
  have prepared := consistent.prepared check member
  exact fresh (prepared.stored id ((prepared.dangling danglingIds isDangling).1 id isMarked))

theorem consistent_addJob (consistent : service.Consistent) {id : ExecutionId}
    (toBeEnqueued : id ∈ service.toBeEnqueued) :
    Consistent { service with
      jobs := service.jobs ++ [id]
      toBeEnqueued := service.toBeEnqueued.erase id } := by
  refine consistent_of_mayMark consistent consistent.created (fun _ isCreated => isCreated) rfl rfl rfl
    fun check member danglingIds isDangling _ mayMark execution isExecution isMarked => ?_
  obtain ⟨inProgress, noJob, notToBe⟩ := mayMark execution isExecution isMarked
  refine ⟨inProgress, fun isJob => ?_, fun toBe => notToBe (List.mem_of_mem_erase toBe)⟩
  rcases List.mem_append.mp isJob with before | added
  · exact noJob before
  · rw [List.mem_singleton.mp added] at notToBe
    exact notToBe toBeEnqueued

theorem consistent_remove (consistent : service.Consistent)
    (executions : after.executions ⊆ service.executions) (jobs : after.jobs ⊆ service.jobs)
    (toBeEnqueued : after.toBeEnqueued ⊆ service.toBeEnqueued) (sameCreated : after.createdIds = service.createdIds)
    (sameChecks : after.checks = service.checks) (sameMarked : after.marked = service.marked)
    (sameMissed : after.missed = service.missed) : after.Consistent := by
  refine consistent_of_mayMark consistent ?_ ?_ sameChecks sameMarked sameMissed
    fun _ _ _ _ _ mayMark => mayMark_of_subset mayMark executions jobs toBeEnqueued
  · intro execution member
    rw [sameCreated]
    exact consistent.created execution (executions member)
  · rw [sameCreated]
    exact fun _ isCreated => isCreated

/-! ## The steps of a check -/

theorem mem_getInProgressExecutionIds {context : QueueRecoveryContext} {executions : List ExecutionEntity}
    {id : ExecutionId} (member : id ∈ getInProgressExecutionIds context executions) :
    ∃ execution ∈ executions, execution.id = id ∧ execution.inProgress = true := by
  obtain ⟨execution, taken, rfl⟩ := List.mem_map.mp member
  obtain ⟨isExecution, inProgress⟩ := List.mem_filter.mp ((List.mem_insertionSort _).mp (List.mem_of_mem_take taken))
  exact ⟨execution, isExecution, rfl, inProgress⟩

theorem consistent_begin (consistent : service.Consistent)
    (context : QueueRecoveryContext) : (service.begin context).Consistent := by
  simp only [begin]
  split
  · exact consistent_remove consistent (fun _ member => member) (fun _ member => member) (fun _ member => member) rfl
      rfl rfl rfl
  · refine ⟨consistent.created, fun check member => ?_, consistent.recovers.marked, consistent.recovers.missed⟩
    rcases List.mem_append.mp member with before | added
    · exact prepared_of_mayMark (consistent.prepared check before) (fun _ isCreated => isCreated)
        fun _ _ _ mayMark => mayMark
    · obtain rfl := List.mem_singleton.mp added
      refine ⟨fun id isStored => ?_, fun id isThroughout => isThroughout, fun _ isDangling => (by cases isDangling)⟩
      obtain ⟨execution, isExecution, rfl, _⟩ := mem_getInProgressExecutionIds isStored
      exact consistent.created execution isExecution

theorem consistent_completed {service : ScalingService} (created : ∀ execution ∈ service.executions,
      execution.id ∈ service.createdIds) {number : Nat} {check : RecoveryCheck}
    (prepared : ∀ other ∈ service.checks.eraseIdx number, service.Prepared other)
    (marked : ∀ marking ∈ service.marked, marking.inProgress = true ∧ marking.hasJob = false ∧
      marking.toBeEnqueued = false) (missed : service.missed = [])
    (crashed : ∀ id ∈ check.throughout, ∃ execution ∈ service.executions, execution.id = id ∧
      execution.status = .crashed) (waitMs : Nat) : (service.completed number check waitMs).Consistent := by
  refine ⟨created, fun other member => ?_, marked, ?_⟩
  · exact prepared_of_mayMark (prepared other member) (fun _ isCreated => isCreated) fun _ _ _ mayMark => mayMark
  · have none : check.throughout.filter (fun id => !service.executions.any fun execution =>
        execution.id = id && execution.status = .crashed) = [] := by
      refine List.filter_eq_nil_iff.mpr fun id isThroughout => ?_
      obtain ⟨execution, member, isId, isCrashed⟩ := crashed id isThroughout
      have found : service.executions.any (fun execution => execution.id = id && execution.status = .crashed) = true :=
        List.any_eq_true.mpr ⟨execution, member, by simp [isId, isCrashed]⟩
      simp only [found, Bool.not_true]
      exact Bool.false_ne_true
    simp only [completed, missed, none, List.append_nil]

theorem dangling_iff (service : ScalingService) (id : ExecutionId) :
    service.dangling id = true ↔
      (∃ execution ∈ service.executions, execution.id = id ∧ execution.inProgress = true) ∧
        id ∉ service.jobs ∧ id ∉ service.toBeEnqueued := by
  simp [dangling, unattended]

theorem consistent_readQueue (consistent : service.Consistent) (observed : service.Observed)
    (context : QueueRecoveryContext) {number : Nat} {check : RecoveryCheck}
    (isCheck : service.checks[number]? = some check) (notEmpty : service.jobs = [] → check.throughout = [])
    (mayMark : service.jobs ≠ [] → ∀ execution ∈ service.executions, execution.id ∈ check.storedIds →
      execution.id ∉ service.jobs → execution.inProgress = true ∧ execution.id ∉ service.toBeEnqueued) :
    (service.readQueue context number check).Consistent := by
  have member := List.mem_of_getElem? isCheck
  have prepared := consistent.prepared check member
  -- whatever has been dangling throughout is among the ids that have no job
  have covered (id : ExecutionId) (isThroughout : id ∈ check.throughout) :
      id ∈ check.storedIds.filter fun id => !service.jobs.dedup.contains id := by
    obtain ⟨_, noJob, _⟩ := (service.dangling_iff id).mp (observed check member id isThroughout)
    exact List.mem_filter.mpr ⟨prepared.throughout id isThroughout, by simpa [List.mem_dedup] using noJob⟩
  have completed (none : check.throughout = []) :=
    @consistent_completed _ consistent.created number check
      (fun other isOther => consistent.prepared other (List.mem_of_mem_eraseIdx isOther)) consistent.recovers.marked
      consistent.recovers.missed (fun id isThroughout => by simp [none] at isThroughout) context.waitMs
  simp only [readQueue]
  split
  · rename_i empty
    exact completed (notEmpty ((List.dedup_eq_nil _).mp (List.length_eq_zero_iff.mp empty)))
  · rename_i notEmptyIds
    have hasJobs : service.jobs ≠ [] := fun empty => notEmptyIds (by simp [empty])
    split
    · rename_i empty
      rw [List.length_eq_zero_iff] at empty
      simp only [empty] at covered
      exact completed (List.eq_nil_iff_forall_not_mem.mpr fun id isThroughout =>
        absurd (covered id isThroughout) List.not_mem_nil)
    · refine ⟨consistent.created, fun other isOther => ?_, consistent.recovers.marked, consistent.recovers.missed⟩
      rcases List.mem_or_eq_of_mem_set isOther with before | rfl
      · exact prepared_of_mayMark (consistent.prepared other before) (fun _ isCreated => isCreated)
          fun _ _ _ mayMark => mayMark
      · refine ⟨prepared.stored, prepared.throughout, fun danglingIds isDangling => ?_⟩
        obtain rfl := Option.some.inj isDangling
        refine ⟨fun id isId => List.mem_of_mem_filter isId, covered, fun execution isExecution isMarked => ?_⟩
        obtain ⟨isStored, noJob⟩ := List.mem_filter.mp isMarked
        have noJob : execution.id ∉ service.jobs := by simpa [List.mem_dedup] using noJob
        obtain ⟨inProgress, notToBe⟩ := mayMark hasJobs execution isExecution isStored noJob
        exact ⟨inProgress, noJob, notToBe⟩

theorem marked_markings
    (mayMark : service.MayMark danglingIds) {marking : Marking} (member : marking ∈ service.markings danglingIds) :
    marking.inProgress = true ∧ marking.hasJob = false ∧ marking.toBeEnqueued = false := by
  obtain ⟨execution, isMarked, rfl⟩ := List.mem_map.mp member
  obtain ⟨isExecution, isDangling⟩ := List.mem_filter.mp isMarked
  obtain ⟨inProgress, noJob, notToBe⟩ := mayMark execution isExecution (List.contains_iff_mem.mp isDangling)
  exact ⟨inProgress, by simpa using noJob, by simpa using notToBe⟩

theorem consistent_recover (consistent : service.Consistent) (observed : service.Observed)
    (context : QueueRecoveryContext) {number : Nat} {check : RecoveryCheck}
    (isCheck : service.checks[number]? = some check) (isDangling : check.danglingIds = some danglingIds)
    (alone : ∀ other ∈ service.checks.eraseIdx number, ∀ otherIds, other.danglingIds = some otherIds →
      ∀ id ∈ danglingIds, id ∉ otherIds) : (service.recover context number check danglingIds).Consistent := by
  have member := List.mem_of_getElem? isCheck
  obtain ⟨_, covered, mayMark⟩ := (consistent.prepared check member).dangling danglingIds isDangling
  simp only [recover]
  refine consistent_completed ?_ (fun other isOther => ?_) ?_ ?_ (fun id isThroughout => ?_) _
  · intro execution isExecution
    obtain ⟨before, isBefore, rfl⟩ := List.mem_map.mp isExecution
    have created := consistent.created before isBefore
    split <;> exact created
  · refine prepared_of_mayMark (consistent.prepared other (List.mem_of_mem_eraseIdx isOther))
      (fun _ isCreated => isCreated) fun otherIds isOtherIds _ may execution isExecution isMarked => ?_
    obtain ⟨before, isBefore, rfl⟩ := List.mem_map.mp isExecution
    split at isMarked
    · rename_i crashed
      exact absurd isMarked (alone other isOther otherIds isOtherIds before.id (List.contains_iff_mem.mp crashed))
    · rename_i untouched
      rw [if_neg untouched]
      exact may before isBefore isMarked
  · intro marking isMarking
    rcases List.mem_append.mp isMarking with before | added
    · exact consistent.recovers.marked marking before
    · exact marked_markings mayMark added
  · exact consistent.recovers.missed
  · obtain ⟨⟨execution, isExecution, isId, _⟩, _⟩ :=
      (service.dangling_iff id).mp (observed check member id isThroughout)
    refine ⟨{ execution with status := .crashed }, List.mem_map.mpr ⟨execution, isExecution, ?_⟩, isId, rfl⟩
    rw [if_pos]
    rw [isId]
    exact List.contains_iff_mem.mpr (covered id isThroughout)

/-! ## Every step -/

theorem consistent_act (consistent : service.Consistent) (observed : service.Observed)
    (context : QueueRecoveryContext) {event : ScalingEvent} (undisturbed : service.Undisturbed event) :
    (service.act context event).Consistent := by
  cases event with
  | create id byQueue =>
    simp only [act]
    split
    · exact consistent
    · rename_i known
      have fresh : id ∉ service.createdIds := by simpa using known
      have created := consistent_create consistent fresh
      cases byQueue with
      | false => exact created
      | true => exact consistent_enqueueing created (notToBeMarked_of_fresh consistent fresh)
  | resume id byQueue =>
    have running := @consistent_change _ consistent id (fun execution => { execution with status := .running })
      (fun _ => rfl) (.inl fun _ => rfl)
    cases byQueue with
    | false => exact running
    | true => exact consistent_enqueueing running (undisturbed rfl)
  | addJob id =>
    simp only [act]
    split
    · rename_i toBeEnqueued
      exact consistent_addJob consistent (List.contains_iff_mem.mp toBeEnqueued)
    · exact consistent
  | giveUp id =>
    exact consistent_remove consistent (fun _ member => member) (fun _ member => member)
      (fun _ member => List.mem_of_mem_erase member) rfl rfl rfl rfl
  | setRunning id startedAt =>
    exact consistent_change consistent id (fun _ => rfl) (.inl fun _ => rfl)
  | save id status =>
    refine consistent_change consistent id (fun _ => rfl) ?_
    rcases undisturbed with (rfl | rfl) | notToBeMarked
    · exact .inl fun _ => rfl
    · exact .inl fun _ => rfl
    · exact .inr notToBeMarked
  | removeJob id =>
    exact consistent_remove consistent (fun _ member => member) (fun _ member => List.mem_of_mem_erase member)
      (fun _ member => member) rfl rfl rfl rfl
  | delete id =>
    exact consistent_remove consistent (fun _ member => List.mem_of_mem_filter member) (fun _ member => member)
      (fun _ member => member) rfl rfl rfl rfl
  | getInProgressExecutionIds => exact consistent_begin consistent context
  | findJobsByStatus number =>
    simp only [act]
    cases isCheck : service.checks[number]? with
    | none => exact consistent
    | some check =>
      cases notRead : check.danglingIds with
      | none =>
        obtain ⟨notEmpty, mayMark⟩ := undisturbed check isCheck notRead
        simpa [notRead] using consistent_readQueue consistent observed context isCheck notEmpty mayMark
      | some danglingIds => simpa [notRead] using consistent
  | markAsCrashed number =>
    simp only [act]
    cases isCheck : service.checks[number]? with
    | none => exact consistent
    | some check =>
      cases isDangling : check.danglingIds with
      | none => simpa [isDangling] using consistent
      | some danglingIds =>
        have alone := undisturbed check danglingIds isCheck isDangling
        simpa [isDangling] using consistent_recover consistent observed context isCheck isDangling alone

theorem consistent_start : start.Consistent :=
  ⟨fun _ member => absurd member List.not_mem_nil, fun _ member => absurd member List.not_mem_nil,
    fun _ member => absurd member List.not_mem_nil, rfl⟩

/-- If no step of a run disturbs a check, its checks mark only executions that are dangling at that moment, and all of
their batches that have been dangling throughout. -/
theorem always_recoversDangling (context : QueueRecoveryContext) (events : List ScalingEvent)
    (undisturbed : Runs.Every (step context) Undisturbed start events) :
    Runs.Always (step context) RecoversDangling start events := by
  have always := @Runs.always_of_invariant _ _ (step context) Undisturbed
    (fun service => service.Consistent ∧ service.Observed)
    (fun service event met held =>
      ⟨consistent_observe (consistent_act held.1 held.2 context met), observed_observe _⟩) _ _
    ⟨consistent_start, fun _ member => absurd member List.not_mem_nil⟩ undisturbed
  exact always.imp fun _ held => held.1.recovers

/-- The creator of "2" fails before it has added the job, and the check finds the job of "1". -/
theorem gaveUp_recoversDangling :
    Runs.Always (step { batchSize := 100, waitMs := 10800000, nullsFirst := true }) RecoversDangling start
      [.create "1" true, .addJob "1", .create "2" true, .giveUp "2", .getInProgressExecutionIds, .findJobsByStatus 0,
        .markAsCrashed 0] := by
  refine always_recoversDangling _ _ ⟨trivial, trivial, trivial, trivial, trivial, ?_, ?_, trivial⟩
  · rintro check isCheck _
    obtain rfl := Option.some.inj isCheck
    constructor
    · decide
    · decide
  · rintro check danglingIds isCheck _ other isOther
    cases isOther

/-- The queue is empty, and the check returns without the execution "1", whose creator has failed; and the execution
"1" ends and its job goes between the two reads of the check, while "2" has a job. -/
theorem not_always_recoversDangling :
    ¬ Runs.Always (step { batchSize := 100, waitMs := 10800000, nullsFirst := true }) RecoversDangling start
      [.create "1" true, .giveUp "1", .getInProgressExecutionIds, .findJobsByStatus 0] ∧
    ¬ Runs.Always (step { batchSize := 100, waitMs := 10800000, nullsFirst := true }) RecoversDangling start
      [.create "1" true, .addJob "1", .create "2" true, .addJob "2", .setRunning "1" 5, .getInProgressExecutionIds,
        .save "1" .success, .removeJob "1", .findJobsByStatus 0, .markAsCrashed 0] := by
  constructor
  · intro always
    have missed := always.final.missed
    revert missed
    decide
  · intro always
    have marked := always.final.marked { inProgress := false, hasJob := false, toBeEnqueued := false }
    revert marked
    decide

end ScalingService

end N8n.Scaling
