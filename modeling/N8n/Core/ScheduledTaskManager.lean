import N8n.Library.Numbered
import N8n.Library.OrderedMap

/-! # Scheduled tasks

`packages/core/src/execution-engine/scheduled-task-manager.ts`: the cron jobs of
the workflows.  A cron job is a number here, the number of jobs before it.
-/

namespace N8n.Core

abbrev WorkflowId := String

abbrev CronExpression := String

abbrev CronJob := Nat

/-- The registry together with the jobs themselves: every job runs from its registration until it is stopped. -/
structure ScheduledTaskManager where
  cronJobs : OrderedMap WorkflowId (List CronJob)
  /-- The workflow of each job that was ever started. -/
  owners : List WorkflowId
  stopped : List CronJob
  owned : ∀ workflowId, ∀ job ∈ (cronJobs.get? workflowId).getD [], owners[job]? = some workflowId
  tracked : ∀ (job : CronJob) (workflowId : WorkflowId), owners[job]? = some workflowId →
    job ∈ stopped ∨ job ∈ (cronJobs.get? workflowId).getD []
  begun : ∀ job ∈ stopped, job < owners.length

namespace ScheduledTaskManager

def new : ScheduledTaskManager where
  cronJobs := ∅
  owners := []
  stopped := []
  owned workflowId job member := by cases member
  tracked job workflowId isOwner := by cases isOwner
  begun job member := by cases member

def cronJobsOf (manager : ScheduledTaskManager) (workflowId : WorkflowId) : List CronJob :=
  (manager.cronJobs.get? workflowId).getD []

/-- The job is started, and pushed to the jobs of the workflow or to a new list. -/
def registerCron (manager : ScheduledTaskManager) (workflowId : WorkflowId) : ScheduledTaskManager where
  cronJobs := manager.cronJobs.set workflowId (manager.cronJobsOf workflowId ++ [manager.owners.length])
  owners := manager.owners ++ [workflowId]
  stopped := manager.stopped
  owned other job member := by
    by_cases same : other = workflowId
    · subst same
      rw [OrderedMap.get?_set_self, Option.getD_some, List.mem_append, List.mem_singleton] at member
      rcases member with before | rfl
      · exact Numbered.concat_of_some (manager.owned other job before) other
      · simp
    · rw [OrderedMap.get?_set_of_ne _ _ same] at member
      exact Numbered.concat_of_some (manager.owned other job member) workflowId
  tracked job other isOwner := by
    rcases Numbered.concat_iff.mp isOwner with before | ⟨rfl, rfl⟩
    · refine (manager.tracked job other before).imp_right fun member => ?_
      by_cases same : other = workflowId
      · subst same
        simp [cronJobsOf, member]
      · rw [OrderedMap.get?_set_of_ne _ _ same]
        exact member
    · exact .inr (by simp)
  begun job member := by
    rw [List.length_append]
    exact Nat.lt_add_right _ (manager.begun job member)

/-- The jobs of the workflow are popped and stopped, the last one first. -/
def deregisterCrons (manager : ScheduledTaskManager) (workflowId : WorkflowId) : ScheduledTaskManager :=
  match found : manager.cronJobs.get? workflowId with
  | none => manager
  | some jobs =>
    { cronJobs := manager.cronJobs.set workflowId []
      owners := manager.owners
      stopped := manager.stopped ++ jobs.reverse
      owned other job member := by
        by_cases same : other = workflowId
        · subst same
          simp at member
        · rw [OrderedMap.get?_set_of_ne _ _ same] at member
          exact manager.owned other job member
      tracked job other isOwner := by
        rcases manager.tracked job other isOwner with before | member
        · exact .inl (List.mem_append_left _ before)
        · by_cases same : other = workflowId
          · subst same
            rw [found] at member
            exact .inl (List.mem_append_right _ (List.mem_reverse.mpr member))
          · rw [OrderedMap.get?_set_of_ne _ _ same]
            exact .inr member
      begun job member := by
        rw [List.mem_append, List.mem_reverse] at member
        rcases member with before | listed
        · exact manager.begun job before
        · have isOwner := manager.owned workflowId job (by rw [found]; exact listed)
          exact (List.getElem?_eq_some_iff.mp isOwner).1 }

/-- `Object.keys` of a `Map`: its entries are no properties of the object. -/
def objectKeys (_cronJobs : OrderedMap WorkflowId (List CronJob)) : List WorkflowId := []

def deregisterAllCrons (manager : ScheduledTaskManager) : ScheduledTaskManager :=
  (objectKeys manager.cronJobs).foldl deregisterCrons manager

/-! ## What is stopped -/

variable (manager : ScheduledTaskManager)

@[simp] theorem registerCron_stopped (workflowId : WorkflowId) :
    (manager.registerCron workflowId).stopped = manager.stopped := rfl

theorem deregisterCrons_stopped (workflowId : WorkflowId) :
    (manager.deregisterCrons workflowId).stopped = manager.stopped ++ (manager.cronJobsOf workflowId).reverse := by
  unfold deregisterCrons
  split
  · rename_i absent
    simp [cronJobsOf, absent]
  · rename_i jobs found
    simp [cronJobsOf, found]

theorem stopped_of_owner {manager : ScheduledTaskManager} {job : CronJob} {workflowId : WorkflowId}
    (isOwner : manager.owners[job]? = some workflowId) : job ∈ (manager.deregisterCrons workflowId).stopped := by
  rw [deregisterCrons_stopped, List.mem_append, List.mem_reverse]
  exact manager.tracked job workflowId isOwner

theorem owner_of_stopped {manager : ScheduledTaskManager} {job : CronJob} {workflowId : WorkflowId}
    (stops : job ∈ (manager.deregisterCrons workflowId).stopped) :
    job ∈ manager.stopped ∨ manager.owners[job]? = some workflowId := by
  rw [deregisterCrons_stopped, List.mem_append, List.mem_reverse] at stops
  exact stops.imp_right fun member => manager.owned workflowId job member

end ScheduledTaskManager

end N8n.Core
