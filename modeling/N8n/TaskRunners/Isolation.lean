import N8n.TaskRunners.PendingRequests

/-! # Runners and the tasks of others

The broker checks that it knows the runner that sent a message, and then looks
tasks up by their ids alone.  A runner that names only tasks of its own changes
nothing for the others; a task that is named is handled whoever names it.
-/

namespace N8n.TaskRunners.TaskBroker

variable {Payload : Type}

def isAbout (taskId : TaskId) : Deed Payload → Bool
  | .toRequester _ (.taskReady _ named) | .toRequester _ (.taskDone named _) | .toRequester _ (.taskError named _)
  | .toRequester _ (.taskDataRequest named _ _) | .toRequester _ (.nodeTypesRequest named _ _)
  | .toRequester _ (.rpc named _ _ _) => named = taskId
  | _ => false

def IsTaskOf (broker : TaskBroker Payload) (runnerId : RunnerId) (taskId : TaskId) : Prop :=
  ∃ task ∈ broker.tasks.get? taskId, task.runnerId = runnerId

/-- The runner has been asked to take the task and acceptOffer has not gone on yet. -/
def IsPendingAt (broker : TaskBroker Payload) (runnerId : RunnerId) (taskId : TaskId) : Prop :=
  ∃ call ∈ broker.acceptOffers[taskId]?, call.offer.runnerId = runnerId ∧ stage call.progress = .waiting

/-- Nothing has changed for a runner: its tasks, what it has been asked, and what the requesters hear of its tasks. -/
structure SameFor (runnerId : RunnerId) (broker next : TaskBroker Payload) : Prop where
  tasks : ∀ taskId task, task.runnerId = runnerId →
    (next.tasks.get? taskId = some task ↔ broker.tasks.get? taskId = some task)
  acceptances : ∀ taskId, broker.IsPendingAt runnerId taskId →
    next.acceptOffers[taskId]? = broker.acceptOffers[taskId]? ∧
      (taskId ∈ next.runnerAcceptRejects ↔ taskId ∈ broker.runnerAcceptRejects)
  messages : ∀ taskId, broker.IsTaskOf runnerId taskId → next.log.filter (isAbout taskId) =
    broker.log.filter (isAbout taskId)

section

variable {broker next last : TaskBroker Payload} {runnerId : RunnerId} {taskId : TaskId}

/-! ## Offers -/

/-- Runners have been asked to take further tasks; nothing else has changed. -/
structure AsksMore (broker next : TaskBroker Payload) : Prop where
  tasks : next.tasks = broker.tasks
  longer : broker.acceptOffers.length ≤ next.acceptOffers.length
  acceptances : ∀ taskId < broker.acceptOffers.length, next.acceptOffers[taskId]? = broker.acceptOffers[taskId]? ∧
    (taskId ∈ next.runnerAcceptRejects ↔ taskId ∈ broker.runnerAcceptRejects)
  messages : ∀ taskId, next.log.filter (isAbout taskId) = broker.log.filter (isAbout taskId)

theorem AsksMore.refl (broker : TaskBroker Payload) : AsksMore broker broker :=
  ⟨rfl, Nat.le_refl _, fun _ _ => ⟨rfl, Iff.rfl⟩, fun _ => rfl⟩

theorem AsksMore.trans (first : AsksMore broker next) (second : AsksMore next last) : AsksMore broker last where
  tasks := second.tasks.trans first.tasks
  longer := Nat.le_trans first.longer second.longer
  acceptances := by
    intro taskId inside
    obtain ⟨call, open_⟩ := first.acceptances taskId inside
    obtain ⟨call', open'⟩ := second.acceptances taskId (Nat.lt_of_lt_of_le inside first.longer)
    exact ⟨call'.trans call, open'.trans open_⟩
  messages := fun taskId => (second.messages taskId).trans (first.messages taskId)

theorem SameFor.refl (runnerId : RunnerId) (broker : TaskBroker Payload) : SameFor runnerId broker broker :=
  ⟨fun _ _ _ => Iff.rfl, fun _ _ => ⟨rfl, Iff.rfl⟩, fun _ _ => rfl⟩

end

namespace ForgedDone

def config : TaskRunnersConfig := { mode := .external, taskTimeout := 60 }

def events : List (Event Unit) :=
  [.registerRunner "runner", .registerRunner "other", .registerRequester "requester",
    .requesterMessage "requester" (.taskRequest "request" "javascript"),
    .runnerMessage "runner" (.taskOffer 0 "javascript" 5000), .runnerMessage "runner" (.taskAccepted 0),
    .acceptOfferGoesOn 0]

end ForgedDone

end N8n.TaskRunners.TaskBroker
