import N8n.Core.ActiveWorkflows

/-! # Deactivation

Runs of `active-workflows.ts` and its
scheduled tasks: what `remove` and the two ways to deregister leave running.
-/

namespace N8n.Core

inductive ActivationEvent where
  /-- `new CronJob` throws, or the job is registered. -/
  | registerCron (workflowId : WorkflowId) (cronJobError : Option String)
  | deregisterCrons (workflowId : WorkflowId)
  | deregisterAllCrons
  | add (workflowId : WorkflowId) (activation : Activation)
  | remove (workflowId : WorkflowId) (closes : ITriggerResponse → CloseResult)

/-- The workflows whose jobs the operation is about. -/
def ActivationEvent.Concerns (workflowId : WorkflowId) : ActivationEvent → Prop
  | .registerCron concerned _ | .deregisterCrons concerned | .remove concerned _ => concerned = workflowId
  | .deregisterAllCrons => True
  | .add _ activation => activation.id = workflowId

def IWorkflowData.closable (data : IWorkflowData) : List ITriggerResponse :=
  data.triggerResponses.filter ITriggerResponse.closeFunction

def CloseResult.isThrown : CloseResult → Bool
  | .throws _ => true
  | _ => false

namespace ActiveWorkflows

def step (active : ActiveWorkflows) : ActivationEvent → ActiveWorkflows
  | .registerCron workflowId none =>
    { active with scheduledTaskManager := active.scheduledTaskManager.registerCron workflowId }
  | .registerCron _ (some _) => active
  | .deregisterCrons workflowId =>
    { active with scheduledTaskManager := active.scheduledTaskManager.deregisterCrons workflowId }
  | .deregisterAllCrons =>
    { active with scheduledTaskManager := active.scheduledTaskManager.deregisterAllCrons }
  | .add workflowId activation => (active.add workflowId activation).1
  | .remove workflowId closes => (active.remove workflowId closes).1

/-- What an operation is there for, and that it keeps to its own workflow. -/
structure Deactivates (active : ActiveWorkflows) (event : ActivationEvent) : Prop where
  all : event = .deregisterAllCrons → ∀ job, job < active.scheduledTaskManager.owners.length →
    job ∈ (active.step event).scheduledTaskManager.stopped
  stopped : ∀ workflowId closes data, event = .remove workflowId closes → active.get workflowId = some data →
    ∀ job : CronJob, active.scheduledTaskManager.owners[job]? = some workflowId →
      job ∈ (active.step event).scheduledTaskManager.stopped
  closedOnce : ∀ workflowId closes data, event = .remove workflowId closes → active.get workflowId = some data →
    ∀ response ∈ data.closable, (active.step event).closed.count response.number = 1
  others : ∀ (job : CronJob) workflowId, active.scheduledTaskManager.owners[job]? = some workflowId →
    ¬ event.Concerns workflowId → job ∈ (active.step event).scheduledTaskManager.stopped →
      job ∈ active.scheduledTaskManager.stopped

/-- No job runs when all are deregistered; the responses of a workflow that is removed have not been closed before, and
no close function but the last one throws. -/
def CanDeactivate (active : ActiveWorkflows) : ActivationEvent → Prop
  | .deregisterAllCrons => ∀ job, job < active.scheduledTaskManager.owners.length →
    job ∈ active.scheduledTaskManager.stopped
  | .remove workflowId closes => ∀ data, active.get workflowId = some data →
    (∀ response ∈ data.closable, response.number ∉ active.closed) ∧
      ∀ response ∈ data.closable.dropLast, (closes response).isThrown = false
  | _ => True

/-! ## The close functions that are called -/

/-- Up to the first one that throws. -/
def called (closes : ITriggerResponse → CloseResult) : List ITriggerResponse → List ITriggerResponse
  | [] => []
  | response :: rest => if (closes response).isThrown then [response] else response :: called closes rest

theorem closeTriggers_state (closes : ITriggerResponse → CloseResult) (workflowId : WorkflowId)
    (active : ActiveWorkflows) (responses : List ITriggerResponse) :
    (closeTriggers closes workflowId active responses).1 =
      { active with
        closed := active.closed ++
          (called closes (responses.filter ITriggerResponse.closeFunction)).map ITriggerResponse.number } := by
  induction responses generalizing active with
  | nil => simp [closeTriggers, called]
  | cons response rest ih =>
    by_cases closable : response.closeFunction = true
    · cases result : closes response with
      | throws message =>
        simp [closeTriggers, closeTrigger, closable, result, called, CloseResult.isThrown]
      | _ =>
        simp [closeTriggers, closeTrigger, closable, result, called, CloseResult.isThrown, ih]
    · simp [closeTriggers, closeTrigger, closable, ih]

theorem called_front (closes : ITriggerResponse → CloseResult) (responses : List ITriggerResponse) :
    called closes responses <+: responses := by
  induction responses with
  | nil => exact List.prefix_rfl
  | cons response rest ih =>
    by_cases thrown : (closes response).isThrown = true
    · simp [called, thrown]
    · simpa [called, thrown] using ih

variable {responses : List ITriggerResponse}

theorem called_all_iff (closes : ITriggerResponse → CloseResult) (distinct : responses.Nodup) :
    (∀ response ∈ responses, response ∈ called closes responses) ↔
      ∀ response ∈ responses.dropLast, (closes response).isThrown = false := by
  induction responses with
  | nil => simp
  | cons response rest ih =>
    obtain ⟨absent, distinct⟩ := List.nodup_cons.mp distinct
    cases rest with
    | nil => simp [called]
    | cons second rest =>
      by_cases thrown : (closes response).isThrown = true
      · have different : second ≠ response := by
          rintro rfl
          exact absent List.mem_cons_self
        constructor
        · intro all
          have isCalled := all second (List.mem_cons_of_mem _ List.mem_cons_self)
          simp only [called, thrown, if_true, List.mem_singleton] at isCalled
          exact absurd isCalled different
        · intro none
          rw [none response (by simp)] at thrown
          cases thrown
      · have goesOn : called closes (response :: second :: rest) = response :: called closes (second :: rest) := by
          rw [called, if_neg thrown]
        rw [goesOn, List.dropLast_cons_cons, List.forall_mem_cons (l := second :: rest),
          List.forall_mem_cons (l := (second :: rest).dropLast), ← ih distinct]
        constructor
        · rintro ⟨_, all⟩
          refine ⟨by simpa using thrown, fun other member => ?_⟩
          rcases List.mem_cons.mp (all other member) with rfl | isCalled
          · exact absurd member absent
          · exact isCalled
        · rintro ⟨_, all⟩
          exact ⟨List.mem_cons_self, fun other member => List.mem_cons_of_mem _ (all other member)⟩

/-! ## What every operation keeps -/

def NumberedInOrder (responses : List ITriggerResponse) : Prop :=
  ∀ number (response : ITriggerResponse), responses[number]? = some response → response.number = number

/-- Responses are told apart by their numbers, and the close functions of a workflow were called from the front. -/
structure Consistent (active : ActiveWorkflows) : Prop where
  numbered : NumberedInOrder active.responses
  known : ∀ number ∈ active.closed, number < active.responses.length
  held : ∀ workflowId data, active.get workflowId = some data → data.triggerResponses.Sublist active.responses
  disjoint : ∀ workflowId data workflowId' data', active.get workflowId = some data →
    active.get workflowId' = some data' → workflowId ≠ workflowId' →
      ∀ response ∈ data.triggerResponses, response ∉ data'.triggerResponses
  inOrder : ∀ workflowId data, active.get workflowId = some data →
    data.closable.Pairwise fun first second =>
      active.closed.count second.number ≤ active.closed.count first.number

theorem consistent_new : Consistent new where
  numbered number response isResponse := by cases isResponse
  known number member := by cases member
  held workflowId data found := by cases found
  disjoint workflowId data workflowId' data' found := by cases found
  inOrder workflowId data found := by cases found

theorem NumberedInOrder.nodup (numbered : NumberedInOrder responses) :
    (responses.map ITriggerResponse.number).Nodup := by
  rw [List.Nodup, List.pairwise_map, List.pairwise_iff_getElem]
  intro first second firstBound secondBound before
  rw [numbered first _ (List.getElem?_eq_getElem firstBound), numbered second _ (List.getElem?_eq_getElem secondBound)]
  exact Nat.ne_of_lt before

theorem NumberedInOrder.lt (numbered : NumberedInOrder responses) {response : ITriggerResponse}
    (isResponse : response ∈ responses) : response.number < responses.length := by
  obtain ⟨index, isIndex⟩ := List.mem_iff_getElem?.mp isResponse
  rw [numbered index response isIndex]
  exact (List.getElem?_eq_some_iff.mp isIndex).1

theorem NumberedInOrder.injective (numbered : NumberedInOrder responses) {first second : ITriggerResponse}
    (isFirst : first ∈ responses) (isSecond : second ∈ responses) (same : first.number = second.number) :
    first = second := by
  obtain ⟨index, isIndex⟩ := List.mem_iff_getElem?.mp isFirst
  obtain ⟨index', isIndex'⟩ := List.mem_iff_getElem?.mp isSecond
  rw [numbered index first isIndex, numbered index' second isIndex'] at same
  subst same
  exact Option.some.inj (isIndex.symm.trans isIndex')

theorem NumberedInOrder.concat (numbered : NumberedInOrder responses) (closeFunction : Bool) :
    NumberedInOrder (responses ++ [{ number := responses.length, closeFunction }]) := by
  intro number response isResponse
  rcases Numbered.concat_iff.mp isResponse with before | ⟨rfl, rfl⟩
  · exact numbered number response before
  · rfl

variable {active : ActiveWorkflows}

theorem runTriggers_numbered (activation : Activation) (numbered : NumberedInOrder active.responses)
    (triggerResponses : List ITriggerResponse) (nodes : List INode) :
    NumberedInOrder (runTriggers activation active triggerResponses nodes).1.responses := by
  induction nodes generalizing active triggerResponses with
  | nil => exact numbered
  | cons node rest ih =>
    cases result : (activation.runTrigger node).result with
    | throws message => simpa [runTriggers, runTrigger, result] using numbered
    | noResponse =>
      simp only [runTriggers, runTrigger, result]
      exact ih (by exact numbered) triggerResponses
    | responds closeFunction =>
      simp only [runTriggers, runTrigger, result]
      exact ih (by exact numbered.concat closeFunction) _

theorem add_numbered (numbered : NumberedInOrder active.responses) (workflowId : WorkflowId) (activation : Activation) :
    NumberedInOrder (active.add workflowId activation).1.responses := by
  have ran := runTriggers_numbered activation numbered [] activation.triggerNodes
  unfold add
  split
  · rename_i next error outcome
    rw [outcome] at ran
    exact ran
  · rename_i next triggerResponses outcome
    rw [outcome] at ran
    obtain ⟨count, polled⟩ := activatePollers_spec workflowId activation triggerResponses
      { next with activeWorkflows := next.activeWorkflows.set workflowId { triggerResponses } } activation.pollNodes
    rw [polled]
    exact ran

variable {workflowId : WorkflowId} {data : IWorkflowData}

theorem get_add {activation : Activation} {started : List ITriggerResponse}
    (either : (active.add workflowId activation).1.activeWorkflows = active.activeWorkflows ∨
      (active.add workflowId activation).1.activeWorkflows =
        active.activeWorkflows.set workflowId { triggerResponses := started } ∨
      (active.add workflowId activation).1.activeWorkflows =
        (active.activeWorkflows.set workflowId { triggerResponses := started }).erase workflowId) {other : WorkflowId}
    (found : (active.add workflowId activation).1.get other = some data) :
    active.get other = some data ∨ (other = workflowId ∧ data = { triggerResponses := started }) := by
  rcases either with same | set | erased
  · rw [get, same] at found
    exact .inl found
  · rw [get, set, OrderedMap.get?_set] at found
    split at found
    · rename_i isWorkflow
      exact .inr ⟨isWorkflow, (Option.some.inj found).symm⟩
    · exact .inl found
  · by_cases isWorkflow : other = workflowId
    · rw [get, erased, isWorkflow, OrderedMap.get?_erase_self] at found
      cases found
    · rw [get, erased, OrderedMap.get?_erase_of_ne _ isWorkflow, OrderedMap.get?_set_of_ne _ _ isWorkflow] at found
      exact .inl found

theorem add_entries (active : ActiveWorkflows) (workflowId : WorkflowId) (activation : Activation) :
    ∃ started, (active.add workflowId activation).1.responses = active.responses ++ started ∧
      (active.add workflowId activation).1.closed = active.closed ∧
      ∀ other data, (active.add workflowId activation).1.get other = some data →
        active.get other = some data ∨ (other = workflowId ∧ data = { triggerResponses := started }) := by
  obtain ⟨count, started, _, responses, closed, either⟩ := add_cases active workflowId activation
  refine ⟨started, responses, closed, fun other data found => get_add ?_ found⟩
  rcases either with ⟨_, _, same⟩ | ⟨_, entries⟩
  · exact .inl same
  · split at entries
    · exact .inr (.inl entries)
    · split at entries
      · exact .inr (.inr entries)
      · exact .inr (.inl entries)

theorem consistent_add (consistent : active.Consistent) (workflowId : WorkflowId) (activation : Activation) :
    (active.add workflowId activation).1.Consistent := by
  have numbered := add_numbered consistent.numbered workflowId activation
  obtain ⟨started, responses, closed, entries⟩ := add_entries active workflowId activation
  rw [responses] at numbered
  have distinct := numbered.nodup
  rw [List.map_append, List.nodup_append] at distinct
  -- a response of this call is none of those before it, and it has not been closed
  have fresh : ∀ response ∈ started, response ∉ active.responses := fun response isStarted before =>
    distinct.2.2 _ (List.mem_map_of_mem before) _ (List.mem_map_of_mem isStarted) rfl
  have open' : ∀ response ∈ started, active.closed.count response.number = 0 := by
    intro response isStarted
    refine List.count_eq_zero.mpr fun isClosed => ?_
    have bound := consistent.known _ isClosed
    have isRecord : (active.responses ++ started)[response.number]? = some active.responses[response.number] := by
      rw [List.getElem?_append_left bound, List.getElem?_eq_getElem bound]
    have same := numbered _ _ isRecord
    have equal := numbered.injective (List.mem_append_left started (List.getElem_mem bound))
      (List.mem_append_right _ isStarted) same
    exact fresh response isStarted (equal ▸ List.getElem_mem bound)
  refine ⟨by rw [responses]; exact numbered, fun number isClosed => ?_, fun other data found => ?_,
    fun other data other' data' found found' different response member member' => ?_, fun other data found => ?_⟩
  · rw [closed] at isClosed
    rw [responses, List.length_append]
    exact Nat.lt_add_right _ (consistent.known number isClosed)
  · rw [responses]
    rcases entries other data found with before | ⟨_, rfl⟩
    · exact (consistent.held other data before).trans (List.sublist_append_left _ _)
    · exact List.sublist_append_right _ _
  · rcases entries other data found with before | ⟨rfl, rfl⟩
    · rcases entries other' data' found' with before' | ⟨rfl, rfl⟩
      · exact consistent.disjoint other data other' data' before before' different response member member'
      · exact fresh response member' ((consistent.held other data before).subset member)
    · rcases entries other' data' found' with before' | ⟨rfl, rfl⟩
      · exact fresh response member ((consistent.held other' data' before').subset member')
      · exact different rfl
  · rw [closed]
    rcases entries other data found with before | ⟨_, rfl⟩
    · exact consistent.inOrder other data before
    · refine List.Pairwise.imp_of_mem (fun {first second} _ isSecond _ => ?_)
        (List.pairwise_of_forall (R := fun _ _ => True) fun _ _ => trivial)
      rw [open' second (List.mem_of_mem_filter isSecond)]
      exact Nat.zero_le _

theorem remove_state (found : active.get workflowId = some data) (closes : ITriggerResponse → CloseResult) :
    ∃ entries, (active.remove workflowId closes).1 =
        { active with
          activeWorkflows := entries
          scheduledTaskManager := active.scheduledTaskManager.deregisterCrons workflowId
          closed := active.closed ++ (called closes data.closable).map ITriggerResponse.number } ∧
      (entries = active.activeWorkflows ∨ entries = active.activeWorkflows.erase workflowId) := by
  have closed := closeTriggers_state closes workflowId
    { active with scheduledTaskManager := active.scheduledTaskManager.deregisterCrons workflowId }
    data.triggerResponses
  cases outcome : closeTriggers closes workflowId
      { active with scheduledTaskManager := active.scheduledTaskManager.deregisterCrons workflowId }
      data.triggerResponses with
  | mk next result =>
    rw [outcome] at closed
    obtain rfl : next = _ := closed
    cases result with
    | error error => exact ⟨active.activeWorkflows, by simp only [remove, found, outcome]; rfl, .inl rfl⟩
    | ok => exact ⟨_, by simp only [remove, found, outcome]; rfl, .inr rfl⟩

theorem get_remove {entries : OrderedMap WorkflowId IWorkflowData}
    (either : entries = active.activeWorkflows ∨ entries = active.activeWorkflows.erase workflowId)
    {other : WorkflowId} (found : entries.get? other = some data) :
    active.get other = some data := by
  rcases either with rfl | rfl
  · exact found
  · by_cases isWorkflow : other = workflowId
    · rw [isWorkflow, OrderedMap.get?_erase_self] at found
      cases found
    · rwa [OrderedMap.get?_erase_of_ne _ isWorkflow] at found

theorem closable_subset (consistent : active.Consistent) (found : active.get workflowId = some data) :
    data.closable.Sublist active.responses :=
  List.filter_sublist.trans (consistent.held workflowId data found)

theorem nodup_closable (consistent : active.Consistent) (found : active.get workflowId = some data) :
    (data.closable.map ITriggerResponse.number).Nodup :=
  consistent.numbered.nodup.sublist ((closable_subset consistent found).map _)

theorem count_called (consistent : active.Consistent) (found : active.get workflowId = some data)
    (closes : ITriggerResponse → CloseResult) {response : ITriggerResponse} (isResponse : response ∈ active.responses) :
    ((called closes data.closable).map ITriggerResponse.number).count response.number =
      if response ∈ called closes data.closable then 1 else 0 := by
  have inside := called_front closes data.closable
  have distinct := (nodup_closable consistent found).sublist (inside.sublist.map _)
  rw [distinct.count]
  refine if_congr ⟨fun member => ?_, fun member => List.mem_map_of_mem member⟩ rfl rfl
  obtain ⟨other, isCalled, same⟩ := List.mem_map.mp member
  have isOther := (closable_subset consistent found).subset (inside.subset isCalled)
  exact consistent.numbered.injective isOther isResponse same ▸ isCalled

theorem inOrder_called (consistent : active.Consistent) (found : active.get workflowId = some data)
    (closes : ITriggerResponse → CloseResult) :
    data.closable.Pairwise fun first second =>
      (active.closed ++ (called closes data.closable).map ITriggerResponse.number).count second.number ≤
        (active.closed ++ (called closes data.closable).map ITriggerResponse.number).count first.number := by
  have inOrder := consistent.inOrder workflowId data found
  have distinct := List.Nodup.of_map _ (nodup_closable consistent found)
  have known := (closable_subset consistent found).subset
  have counts : ∀ {response}, response ∈ data.closable → _ := fun member =>
    count_called consistent found closes (known member)
  obtain ⟨notCalled, parts⟩ := called_front closes data.closable
  rw [← parts, List.pairwise_append] at inOrder ⊢
  rw [← parts, List.nodup_append] at distinct
  have firstPart : ∀ {response}, response ∈ called closes data.closable → response ∈ data.closable := fun member =>
    parts ▸ List.mem_append_left notCalled member
  have secondPart : ∀ {response}, response ∈ notCalled → response ∈ data.closable ∧
      response ∉ called closes data.closable := fun member =>
    ⟨parts ▸ List.mem_append_right _ member, fun again => distinct.2.2 _ again _ member rfl⟩
  -- the counts of those in front grow by one, those of the others stay
  rw [parts]
  refine ⟨inOrder.1.imp_of_mem fun {first second} isFirst isSecond below => ?_,
    inOrder.2.1.imp_of_mem fun {first second} isFirst isSecond below => ?_, fun first isFirst second isSecond => ?_⟩
  · simp only [List.count_append, counts (firstPart isFirst), counts (firstPart isSecond), isFirst, isSecond, if_true]
    exact Nat.add_le_add_right below 1
  · simp only [List.count_append, counts (secondPart isFirst).1, counts (secondPart isSecond).1,
      (secondPart isFirst).2, (secondPart isSecond).2, if_false]
    exact below
  · simp only [List.count_append, counts (firstPart isFirst), counts (secondPart isSecond).1, isFirst,
      (secondPart isSecond).2, if_true, if_false]
    exact Nat.le_succ_of_le (inOrder.2.2 first isFirst second isSecond)

theorem consistent_remove (consistent : active.Consistent) (workflowId : WorkflowId)
    (closes : ITriggerResponse → CloseResult) : (active.remove workflowId closes).1.Consistent := by
  cases found : active.get workflowId with
  | none =>
    have same : (active.remove workflowId closes).1 = active := by simp only [remove, found]
    rw [same]
    exact consistent
  | some data =>
    obtain ⟨entries, next, either⟩ := remove_state found closes
    rw [next]
    refine ⟨consistent.numbered, fun number isClosed => ?_, fun other data' found' => ?_,
      fun other data' other' data'' found' found'' => ?_, fun other data' found' => ?_⟩
    · rcases List.mem_append.mp isClosed with before | isCalled
      · exact consistent.known number before
      · obtain ⟨response, member, rfl⟩ := List.mem_map.mp isCalled
        exact consistent.numbered.lt
          ((closable_subset consistent found).subset ((called_front closes data.closable).subset member))
    · exact consistent.held other data' (get_remove either found')
    · exact consistent.disjoint other data' other' data'' (get_remove either found') (get_remove either found'')
    · have before := get_remove either found'
      by_cases isWorkflow : other = workflowId
      · subst isWorkflow
        obtain rfl := Option.some.inj (found.symm.trans before)
        exact inOrder_called consistent found closes
      · -- the responses of another workflow are none of those that are called
        have notCalled : ∀ response ∈ data'.closable, response ∉ called closes data.closable := by
          intro response member isCalled
          exact consistent.disjoint other data' workflowId data before found isWorkflow response
            (List.mem_of_mem_filter member)
            (List.mem_of_mem_filter ((called_front closes data.closable).subset isCalled))
        refine (consistent.inOrder other data' before).imp_of_mem fun {first second} isFirst isSecond below => ?_
        have known := (closable_subset consistent before).subset
        simp only [List.count_append, count_called consistent found closes (known isFirst),
          count_called consistent found closes (known isSecond), notCalled first isFirst, notCalled second isSecond,
          if_false]
        exact below

theorem consistent_step {active : ActiveWorkflows} (consistent : active.Consistent) (event : ActivationEvent) :
    (active.step event).Consistent := by
  have others : ∀ manager, ({ active with scheduledTaskManager := manager } : ActiveWorkflows).Consistent :=
    fun manager => ⟨consistent.numbered, consistent.known, consistent.held, consistent.disjoint, consistent.inOrder⟩
  cases event with
  | registerCron workflowId error =>
    cases error with
    | none => exact others _
    | some _ => exact consistent
  | deregisterCrons workflowId => exact others _
  | deregisterAllCrons => exact others _
  | add workflowId activation => exact consistent_add consistent workflowId activation
  | remove workflowId closes => exact consistent_remove consistent workflowId closes

/-! ## What an operation stops -/

theorem stops_own (active : ActiveWorkflows) (event : ActivationEvent) {job : CronJob} {workflowId : WorkflowId}
    (isOwner : active.scheduledTaskManager.owners[job]? = some workflowId) (unconcerned : ¬ event.Concerns workflowId)
    (stops : job ∈ (active.step event).scheduledTaskManager.stopped) : job ∈ active.scheduledTaskManager.stopped := by
  have deregistered : ∀ concerned, concerned ≠ workflowId →
      job ∈ (active.scheduledTaskManager.deregisterCrons concerned).stopped →
        job ∈ active.scheduledTaskManager.stopped := by
    intro concerned different stops
    rcases ScheduledTaskManager.owner_of_stopped stops with before | isConcerned
    · exact before
    · exact absurd (Option.some.inj (isConcerned.symm.trans isOwner)) different
  cases event with
  | registerCron concerned error =>
    cases error with
    | none => exact stops
    | some _ => exact stops
  | deregisterCrons concerned => exact deregistered concerned unconcerned stops
  | deregisterAllCrons => exact absurd trivial unconcerned
  | add concerned activation =>
    obtain ⟨count, _, manager, _⟩ := add_cases active concerned activation
    rw [step, manager, registerCrons_stopped] at stops
    exact stops
  | remove concerned closes =>
    cases found : active.get concerned with
    | none =>
      simp only [step, remove, found] at stops
      exact stops
    | some data =>
      obtain ⟨entries, next, _⟩ := remove_state found closes
      rw [step, next] at stops
      exact deregistered concerned unconcerned stops

/-- Every close function is called for the first time, and none that throws is in front of another one. -/
theorem closedOnce_iff (consistent : active.Consistent) (found : active.get workflowId = some data)
    (closes : ITriggerResponse → CloseResult) :
    (∀ response ∈ data.closable, (active.remove workflowId closes).1.closed.count response.number = 1) ↔
      (∀ response ∈ data.closable, response.number ∉ active.closed) ∧
        ∀ response ∈ data.closable.dropLast, (closes response).isThrown = false := by
  obtain ⟨entries, next, _⟩ := remove_state found closes
  have known := (closable_subset consistent found).subset
  have distinct := List.Nodup.of_map _ (nodup_closable consistent found)
  have counts : ∀ response ∈ data.closable, (active.remove workflowId closes).1.closed.count response.number =
      active.closed.count response.number + if response ∈ called closes data.closable then 1 else 0 := by
    intro response member
    rw [next]
    simp only [List.count_append, count_called consistent found closes (known member)]
  rw [← called_all_iff closes distinct]
  constructor
  · intro once
    -- the first one is called in any case, so it was not closed before, and so were the others not
    have untouched : ∀ response ∈ data.closable, active.closed.count response.number = 0 := by
      have inOrder := consistent.inOrder workflowId data found
      cases isClosable : data.closable with
      | nil => simp
      | cons first rest =>
        have isCalled : first ∈ called closes (first :: rest) := by
          rw [called]
          split
          · exact List.mem_singleton_self _
          · exact List.mem_cons_self
        have onceFirst := once first (by rw [isClosable]; exact List.mem_cons_self)
        rw [counts first (by rw [isClosable]; exact List.mem_cons_self), isClosable, if_pos isCalled] at onceFirst
        rw [isClosable, List.pairwise_cons] at inOrder
        intro response member
        rcases List.mem_cons.mp member with rfl | later
        · omega
        · have below := inOrder.1 response later
          omega
    refine ⟨fun response member => List.count_eq_zero.mp (untouched response member), fun response member => ?_⟩
    by_contra notCalled
    have onceResponse := once response member
    rw [counts response member, untouched response member, if_neg notCalled] at onceResponse
    cases onceResponse
  · rintro ⟨untouched, all⟩ response member
    rw [counts response member, List.count_eq_zero.mpr (untouched response member), if_pos (all response member)]

theorem deactivates_iff (consistent : active.Consistent) (event : ActivationEvent) :
    active.Deactivates event ↔ active.CanDeactivate event := by
  have others := fun (job : CronJob) workflowId isOwner unconcerned stops =>
    @stops_own active event job workflowId isOwner unconcerned stops
  cases event with
  | deregisterAllCrons =>
    exact ⟨fun deactivates => deactivates.all rfl, fun all => ⟨fun _ => all,
      fun _ _ _ impossible => (by cases impossible), fun _ _ _ impossible => (by cases impossible), others⟩⟩
  | remove workflowId closes =>
    constructor
    · intro deactivates data found
      exact (closedOnce_iff consistent found closes).mp (deactivates.closedOnce workflowId closes data rfl found)
    · intro can
      refine ⟨fun impossible => (by cases impossible), fun workflowId' closes' data same found job isOwner => ?_,
        fun workflowId' closes' data same found => ?_, others⟩
      · obtain ⟨rfl, rfl⟩ := ActivationEvent.remove.inj same
        obtain ⟨entries, next, _⟩ := remove_state found closes
        rw [step, next]
        exact ScheduledTaskManager.stopped_of_owner isOwner
      · obtain ⟨rfl, rfl⟩ := ActivationEvent.remove.inj same
        exact (closedOnce_iff consistent found closes).mpr (can data found)
  | _ =>
    exact iff_of_true ⟨fun impossible => (by cases impossible), fun _ _ _ impossible => (by cases impossible),
      fun _ _ _ impossible => (by cases impossible), others⟩ trivial

/-- In every run the operations do what they are there for exactly when every operation can. -/
theorem every_deactivates_iff (events : List ActivationEvent) :
    Runs.Every step Deactivates new events ↔ Runs.Every step CanDeactivate new events :=
  @Runs.every_iff_every _ _ step Deactivates CanDeactivate Consistent
    (fun _ event consistent => consistent_step consistent event)
    (fun _ event consistent => deactivates_iff consistent event) _ consistent_new events

/-! A job runs when all are deregistered; the first of two close functions throws, and the workflow is removed again. -/

def twoTriggers : Activation where
  id := "1"
  triggerNodes :=
    [{ id := "a", name := "First", type := "trigger" }, { id := "b", name := "Second", type := "trigger" }]
  pollNodes := []
  runTrigger _ := { result := .responds true }
  runPoll _ := { cronTimes := .ok [], executeTrigger := .ok () }
  cronJobError _ := none

theorem not_every_deactivates :
    ¬ Runs.Every step Deactivates new [.registerCron "1" none, .deregisterAllCrons] ∧
      ¬ Runs.Every step Deactivates new [.add "1" twoTriggers, .remove "1" fun _ => .throws "failed"] := by
  constructor
  · rintro ⟨_, deactivates, _⟩
    have stopped := deactivates.all rfl 0 (by decide)
    cases stopped
  · rintro ⟨_, deactivates, _⟩
    have closed := deactivates.closedOnce "1" _ ⟨[⟨0, true⟩, ⟨1, true⟩]⟩ rfl (by decide) ⟨1, true⟩ (by decide)
    cases closed

end ActiveWorkflows

end N8n.Core
