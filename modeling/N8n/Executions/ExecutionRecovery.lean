import Mathlib.Data.List.Induction
import N8n.Concurrency.ActiveExecutions
import N8n.Library.SkippedTurns
import N8n.Workflow.Interfaces

/-! # Recovering an execution from the event log

`packages/cli/src/executions/execution-recovery.service.ts`: an execution that
was cut off is amended by what the event log tells of its nodes.  Of the
execution only the columns stand here that the service reads or writes.
-/

namespace N8n.ExecutionRecovery

open Concurrency (ExecutionStatus)

/-- A message of the event log; the time is in milliseconds. -/
structure EventMessage where
  eventName : String
  ts : Int
  nodeName : Option String
deriving DecidableEq, Repr

inductive ExecutionError where
  | nodeCrashed (node : String)
  | workflowCrashed
  | other (message : String)
deriving DecidableEq, Repr

structure ITaskData (Item : Type) where
  startTime : Int
  executionTime : Int
  executionStatus : Option ExecutionStatus
  data : Option (ITaskDataConnections Item)
  error : Option ExecutionError
  source : List (Option ISourceData)

structure IRunExecutionData (Item : Type) where
  runData : OrderedMap String (List (ITaskData Item))
  lastNodeExecuted : Option String := none
  error : Option ExecutionError := none

structure IExecutionResponse (Item : Type) where
  /-- The names of the nodes of the workflow. -/
  nodes : List String
  status : ExecutionStatus
  stoppedAt : Option Int
  data : Option (IRunExecutionData Item)

variable {Item : Type}

def hasPrefix (text : String) (eventName : String) : Bool := text.toList.isPrefixOf eventName.toList

def isNodeMessage (message : EventMessage) : Bool := hasPrefix "n8n.node." message.eventName

/-- The messages about nodes and, of the others, those about workflows. -/
def toRelevantMessages (messages : List EventMessage) : List EventMessage × List EventMessage :=
  messages.foldl
    (fun acc cur =>
      if isNodeMessage cur then (acc.1 ++ [cur], acc.2)
      else if hasPrefix "n8n.workflow." cur.eventName then (acc.1, acc.2 ++ [cur])
      else acc)
    ([], [])

def isStartOf (node : String) (message : EventMessage) : Bool :=
  message.nodeName = some node && message.eventName = "n8n.node.started"

def isFinishOf (node : String) (message : EventMessage) : Bool :=
  message.nodeName = some node && message.eventName = "n8n.node.finished"

def WORKFLOW_END_EVENTS : List String := ["n8n.workflow.success", "n8n.workflow.crashed", "n8n.workflow.failed"]

def toStoppedAt (timestamp : Option Int) (messages : List EventMessage) : Option Int :=
  match timestamp with
  | some timestamp => some timestamp
  | none => ((messages.find? fun message => message.eventName ∈ WORKFLOW_END_EVENTS).or
      (messages.find? fun message => message.eventName = "n8n.workflow.started")).map EventMessage.ts

/-- One item that stands for the lost output. -/
def ARTIFICIAL_TASK_DATA (artificialItem : Item) : ITaskDataConnections Item := .set ∅ .main [.full [artificialItem]]

/-- The run data so far, and the time of the node that was recovered last. -/
structure AmendState (Item : Type) where
  runExecutionData : IRunExecutionData Item
  lastNodeRunTimestamp : Option Int

/-- `ts.toUnixInteger()` -/
def toUnixInteger (ts : Int) : Int := ts / 1000

/-- The run of a node with its first start and its first finish, if it has one. -/
def taskDataOf (artificialItem : Item) (node : String) (started : EventMessage) :
    Option EventMessage → ITaskData Item
  | some finished =>
    { startTime := toUnixInteger started.ts, executionTime := finished.ts - started.ts,
      executionStatus := some .success, data := some (ARTIFICIAL_TASK_DATA artificialItem), error := none,
      source := [none] }
  | none =>
    { startTime := toUnixInteger started.ts, executionTime := 0, executionStatus := some .crashed, data := none,
      error := some (.nodeCrashed node), source := [none] }

/-- One turn of the loop over the nodes of the workflow. -/
def amendNode (artificialItem : Item) (nodeMessages : List EventMessage) (state : AmendState Item) (node : String) :
    AmendState Item :=
  match nodeMessages.find? (isStartOf node) with
  | none => state
  | some nodeStartedMessage =>
    -- when saving execution progress
    if state.runExecutionData.runData.has node then state
    else
      let nodeFinishedMessage := nodeMessages.find? (isFinishOf node)
      let taskData := taskDataOf artificialItem node nodeStartedMessage nodeFinishedMessage
      { runExecutionData := { state.runExecutionData with
          lastNodeExecuted := some node
          error := if nodeFinishedMessage.isSome then state.runExecutionData.error else some .workflowCrashed
          runData := state.runExecutionData.runData.set node [taskData] }
        lastNodeRunTimestamp := some (nodeFinishedMessage.getD nodeStartedMessage).ts }

/-- `data ?? { resultData: { runData: {} } }` -/
def runExecutionDataOf (execution : IExecutionResponse Item) : IRunExecutionData Item :=
  execution.data.getD { runData := ∅ }

/-- The execution as the database returns it, `none` when there is none. -/
def amendWithoutLogs (now : Int) (execution : Option (IExecutionResponse Item)) : Option (IExecutionResponse Item) :=
  execution.map fun execution => { execution with status := .crashed, stoppedAt := some now }

def amend (artificialItem : Item) (now : Int) (messages : List EventMessage)
    (execution : Option (IExecutionResponse Item)) : Option (IExecutionResponse Item) :=
  if messages.isEmpty then amendWithoutLogs now execution
  else
    let (nodeMessages, workflowMessages) := toRelevantMessages messages
    if nodeMessages.isEmpty then none
    else match execution with
      | none => none
      | some execution =>
        if execution.status = .success && execution.data.isSome then none
        else
          let state := execution.nodes.foldl (amendNode artificialItem nodeMessages)
            { runExecutionData := runExecutionDataOf execution, lastNodeRunTimestamp := none }
          some { execution with
            status := if execution.status = .error then .error else .crashed
            stoppedAt := toStoppedAt state.lastNodeRunTimestamp workflowMessages
            data := some state.runExecutionData }

/-! ## What the log tells -/

def startedCount (messages : List EventMessage) (node : String) : Nat := messages.countP (isStartOf node)

def finishedCount (messages : List EventMessage) (node : String) : Nat := messages.countP (isFinishOf node)

def latestNodeEvent (messages : List EventMessage) : Option EventMessage := (messages.filter isNodeMessage).getLast?

def latestStartedEvent (messages : List EventMessage) : Option EventMessage :=
  (messages.filter fun message => message.eventName = "n8n.node.started").getLast?

def IsSaved (execution : IExecutionResponse Item) (node : String) : Prop :=
  (runExecutionDataOf execution).runData.has node = true

instance (execution : IExecutionResponse Item) (node : String) : Decidable (IsSaved execution node) :=
  inferInstanceAs (Decidable (_ = true))

def statusOf (execution : IExecutionResponse Item) (node : String) : Option ExecutionStatus :=
  match (runExecutionDataOf execution).runData.get? node with
  | some [taskData] => taskData.executionStatus
  | _ => none

def FollowsLog (artificialItem : Item) (now : Int) (messages : List EventMessage)
    (execution : IExecutionResponse Item) :
    Prop :=
  ∃ amended, amend artificialItem now messages (some execution) = some amended ∧
    (∀ node ∈ execution.nodes, ¬ IsSaved execution node →
      (statusOf amended node = some .crashed ↔ finishedCount messages node < startedCount messages node) ∧
      (0 < startedCount messages node → finishedCount messages node = startedCount messages node →
        statusOf amended node = some .success)) ∧
    (runExecutionDataOf amended).lastNodeExecuted = (latestStartedEvent messages).bind EventMessage.nodeName ∧
    amended.stoppedAt = (latestNodeEvent messages).map EventMessage.ts

/-- The nodes that started and have no saved run data, in the order of the workflow. -/
def lostNodes (messages : List EventMessage) (execution : IExecutionResponse Item) : List String :=
  (execution.nodes.filter fun node => messages.any (isStartOf node) && ¬ IsSaved execution node).eraseDups

def firstEnd (messages : List EventMessage) (node : String) : Option Int :=
  ((messages.find? (isFinishOf node)).or (messages.find? (isStartOf node))).map EventMessage.ts

/-- The order of the workflow agrees with the log, and no node is under way again after it has finished. -/
structure OrderAgrees (messages : List EventMessage) (execution : IExecutionResponse Item) : Prop where
  noSecondRun : ∀ node ∈ lostNodes messages execution,
    finishedCount messages node = 0 ∨ startedCount messages node ≤ finishedCount messages node
  lastStarts : (lostNodes messages execution).getLast? = (latestStartedEvent messages).bind EventMessage.nodeName
  lastEnds : (lostNodes messages execution).getLast?.bind (firstEnd messages) =
    (latestNodeEvent messages).map EventMessage.ts

/-! ## The messages of one node -/

section

variable {messages : List EventMessage} {node : String} {artificialItem : Item} {now : Int}
  {execution : IExecutionResponse Item}

theorem isNodeMessage_of_isStartOf {message : EventMessage} (isStart : isStartOf node message = true) :
    isNodeMessage message = true := by
  simp only [isStartOf, Bool.and_eq_true, decide_eq_true_eq] at isStart
  rw [isNodeMessage, isStart.2]
  decide

theorem isNodeMessage_of_isFinishOf {message : EventMessage} (isFinish : isFinishOf node message = true) :
    isNodeMessage message = true := by
  simp only [isFinishOf, Bool.and_eq_true, decide_eq_true_eq] at isFinish
  rw [isNodeMessage, isFinish.2]
  decide

theorem find?_nodeMessages {test : EventMessage → Bool}
    (ofNodes : ∀ message, test message = true → isNodeMessage message = true) :
    (messages.filter isNodeMessage).find? test = messages.find? test := by
  rw [List.find?_filter]
  congr 1
  funext message
  cases passes : test message with
  | false => simp
  | true => simp [ofNodes message passes]

theorem toRelevantMessages_fst (messages : List EventMessage) :
    (toRelevantMessages messages).1 = messages.filter isNodeMessage := by
  induction messages using List.reverseRecOn with
  | nil => rfl
  | append_singleton before message ih =>
    rw [toRelevantMessages, List.foldl_append, List.foldl_cons, List.foldl_nil, ← toRelevantMessages,
      List.filter_append]
    split
    next isNode => simp [ih, isNode]
    next other =>
      rw [ih.symm]
      split <;> simp [other]

theorem startedCount_pos_iff : 0 < startedCount messages node ↔ messages.any (isStartOf node) = true := by
  rw [startedCount, List.countP_pos_iff, List.any_eq_true]

theorem finishedCount_eq_zero_iff : finishedCount messages node = 0 ↔ messages.find? (isFinishOf node) = none := by
  rw [finishedCount, List.countP_eq_zero, List.find?_eq_none]

/-! ## The loop over the nodes -/

/-- The loop skips the node: it has not started, or it has run data. -/
def Idle (nodeMessages : List EventMessage) (node : String) (state : AmendState Item) : Prop :=
  nodeMessages.find? (isStartOf node) = none ∨ state.runExecutionData.runData.has node = true

/-- What the loop does for a node that it does not skip. -/
structure Recovers (artificialItem : Item) (nodeMessages : List EventMessage) (state next : AmendState Item)
    (node : String) : Prop where
  runData : ∃ started, nodeMessages.find? (isStartOf node) = some started ∧
    next.runExecutionData.runData = state.runExecutionData.runData.set node
      [taskDataOf artificialItem node started (nodeMessages.find? (isFinishOf node))]
  lastNodeExecuted : next.runExecutionData.lastNodeExecuted = some node
  timestamp : next.lastNodeRunTimestamp = firstEnd nodeMessages node

theorem amendNode_cases (artificialItem : Item) (nodeMessages : List EventMessage) (state : AmendState Item)
    (node : String) :
    (Idle nodeMessages node state ∧ amendNode artificialItem nodeMessages state node = state) ∨
      Recovers artificialItem nodeMessages state (amendNode artificialItem nodeMessages state node) node := by
  rw [amendNode]
  split
  next notStarted => exact .inl ⟨.inl notStarted, rfl⟩
  next started isStarted =>
    split
    next saved => exact .inl ⟨.inr saved, rfl⟩
    next =>
      refine .inr ⟨⟨started, isStarted, rfl⟩, rfl, ?_⟩
      rw [firstEnd, isStarted]
      cases nodeMessages.find? (isFinishOf node) <;> rfl

variable {nodeMessages : List EventMessage}

theorem Recovers.idle {state next : AmendState Item} (recovers : Recovers artificialItem nodeMessages state next node) :
    Idle nodeMessages node next := by
  obtain ⟨started, _, runData⟩ := recovers.runData
  right
  rw [runData, OrderedMap.has, OrderedMap.get?_set_self]
  rfl

theorem idle_amendNode (nodeMessages : List EventMessage) (state : AmendState Item) (node : String) :
    Idle nodeMessages node (amendNode artificialItem nodeMessages state node) := by
  obtain ⟨idle, same⟩ | recovers := amendNode_cases artificialItem nodeMessages state node
  · rwa [same]
  · exact recovers.idle

variable {state : AmendState Item}

theorem Idle.amendNode (idle : Idle nodeMessages node state) (other : String) :
    Idle nodeMessages node (amendNode artificialItem nodeMessages state other) := by
  obtain ⟨_, same⟩ | recovers := amendNode_cases artificialItem nodeMessages state other
  · rwa [same]
  · obtain ⟨_, _, runData⟩ := recovers.runData
    refine idle.imp_right fun saved => ?_
    rw [OrderedMap.has_iff] at saved ⊢
    rw [runData, OrderedMap.mem_keys_set]
    exact .inr saved

theorem Idle.skipped (idle : Idle nodeMessages node state) :
    ExecutionRecovery.amendNode artificialItem nodeMessages state node = state := by
  rw [ExecutionRecovery.amendNode]
  obtain notStarted | saved := idle
  · rw [notStarted]
  · split
    · rfl
    · exact if_pos saved

/-- What the loop has done for nodes that it does not skip. -/
structure Recovered (artificialItem : Item) (nodeMessages : List EventMessage) (state final : AmendState Item)
    (lost : List String) : Prop where
  runOf : ∀ node ∈ lost, ∃ started, nodeMessages.find? (isStartOf node) = some started ∧
    final.runExecutionData.runData.get? node =
      some [taskDataOf artificialItem node started (nodeMessages.find? (isFinishOf node))]
  others : ∀ node ∉ lost, final.runExecutionData.runData.get? node = state.runExecutionData.runData.get? node
  last : ∀ node ∈ lost.getLast?, final.runExecutionData.lastNodeExecuted = some node ∧
    final.lastNodeRunTimestamp = firstEnd nodeMessages node

theorem foldl_amendNode {lost : List String} (nodup : lost.Nodup)
    (notIdle : ∀ node ∈ lost, ¬ Idle nodeMessages node state) :
    Recovered artificialItem nodeMessages state (lost.foldl (amendNode artificialItem nodeMessages) state) lost := by
  induction lost using List.reverseRecOn with
  | nil => exact ⟨by simp, fun _ _ => rfl, by simp⟩
  | append_singleton before node ih =>
    obtain ⟨nodupBefore, _, apart⟩ := List.nodup_append.mp nodup
    have fresh : node ∉ before := fun member => apart node member node (List.mem_singleton_self node) rfl
    have recovered := ih nodupBefore fun other member => notIdle other (List.mem_append_left _ member)
    rw [List.foldl_append, List.foldl_cons, List.foldl_nil]
    obtain ⟨idle, _⟩ | recovers :=
      amendNode_cases artificialItem nodeMessages (before.foldl (amendNode artificialItem nodeMessages) state) node
    · refine absurd ?_ (notIdle node (by simp))
      refine idle.imp_right fun saved => ?_
      rwa [OrderedMap.has, recovered.others node fresh] at saved
    · obtain ⟨started, isStarted, runData⟩ := recovers.runData
      refine ⟨?_, ?_, ?_⟩
      · intro other member
        by_cases same : other = node
        · subst same
          exact ⟨started, isStarted, by rw [runData, OrderedMap.get?_set_self]⟩
        · have inBefore : other ∈ before := by simpa [same] using member
          obtain ⟨started', isStarted', isRun⟩ := recovered.runOf other inBefore
          exact ⟨started', isStarted', by rw [runData, OrderedMap.get?_set_of_ne _ _ same, isRun]⟩
      · intro other notMember
        rw [List.mem_append, List.mem_singleton, not_or] at notMember
        rw [runData, OrderedMap.get?_set_of_ne _ _ notMember.2, recovered.others other notMember.1]
      · intro last isLast
        rw [List.getLast?_concat, Option.mem_some_iff] at isLast
        subst isLast
        exact ⟨recovers.lastNodeExecuted, recovers.timestamp⟩

/-! ## The amended execution -/

theorem mem_lostNodes : node ∈ lostNodes messages execution ↔
    node ∈ execution.nodes ∧ 0 < startedCount messages node ∧ ¬ IsSaved execution node := by
  rw [lostNodes, List.mem_eraseDups, List.mem_filter, Bool.and_eq_true, decide_eq_true_eq, startedCount_pos_iff]

theorem firstEnd_nodeMessages (messages : List EventMessage) (node : String) :
    firstEnd (messages.filter isNodeMessage) node = firstEnd messages node := by
  rw [firstEnd, firstEnd, find?_nodeMessages fun _ => isNodeMessage_of_isFinishOf,
    find?_nodeMessages fun _ => isNodeMessage_of_isStartOf]

theorem exists_firstEnd (isLost : node ∈ lostNodes messages execution) : ∃ ts, firstEnd messages node = some ts := by
  have started := startedCount_pos_iff.mp (mem_lostNodes.mp isLost).2.1
  rw [firstEnd]
  cases isStarted : messages.find? (isStartOf node) with
  | none =>
    obtain ⟨message, member, isStart⟩ := List.any_eq_true.mp started
    exact absurd isStart (List.find?_eq_none.mp isStarted message member)
  | some started => cases messages.find? (isFinishOf node) <;> exact ⟨_, rfl⟩

variable (artificialItem now) in
theorem foldl_amendNode_nodes (messages : List EventMessage) (execution : IExecutionResponse Item) :
    Recovered artificialItem (messages.filter isNodeMessage)
      { runExecutionData := runExecutionDataOf execution, lastNodeRunTimestamp := none }
      (execution.nodes.foldl (amendNode artificialItem (messages.filter isNodeMessage))
        { runExecutionData := runExecutionDataOf execution, lastNodeRunTimestamp := none })
      (lostNodes messages execution) := by
  have starts : ∀ node, (messages.filter isNodeMessage).find? (isStartOf node) = none ↔
      messages.any (isStartOf node) = false := by
    intro node
    rw [find?_nodeMessages fun _ => isNodeMessage_of_isStartOf, List.find?_eq_none, List.any_eq_false]
  have idles : ∀ node ∈ execution.nodes, (messages.any (isStartOf node) && decide (¬ IsSaved execution node)) = false →
      Idle (messages.filter isNodeMessage) node
        ({ runExecutionData := runExecutionDataOf execution, lastNodeRunTimestamp := none } : AmendState Item) := by
    intro node _ fails
    rw [Bool.and_eq_false_iff, ← starts, decide_eq_false_iff_not, not_not] at fails
    exact fails
  have keeps : ∀ (state : AmendState Item) (node other : String), Idle (messages.filter isNodeMessage) node state →
      Idle (messages.filter isNodeMessage) node
        (amendNode artificialItem (messages.filter isNodeMessage) state other) :=
    fun state node other idle => idle.amendNode other
  have skips : ∀ (state : AmendState Item) (node : String), Idle (messages.filter isNodeMessage) node state →
      amendNode artificialItem (messages.filter isNodeMessage) state node = state := fun state node idle => idle.skipped
  rw [SkippedTurns.foldl_filter keeps skips idles,
    SkippedTurns.foldl_eraseDups (idle_amendNode _) keeps skips]
  apply foldl_amendNode (SkippedTurns.nodup_eraseDups _)
  intro node member idle
  obtain ⟨_, started, notSaved⟩ := mem_lostNodes.mp member
  obtain notStarted | saved := idle
  · rw [starts, ← Bool.not_eq_true, ← startedCount_pos_iff] at notStarted
    exact notStarted started
  · exact notSaved saved

theorem nodeMessages_ne_nil (isLost : lostNodes messages execution ≠ []) : messages.filter isNodeMessage ≠ [] := by
  obtain ⟨node, member⟩ := List.exists_mem_of_ne_nil _ isLost
  obtain ⟨message, inside, isStart⟩ := List.any_eq_true.mp (startedCount_pos_iff.mp (mem_lostNodes.mp member).2.1)
  exact List.ne_nil_of_mem (List.mem_filter.mpr ⟨inside, isNodeMessage_of_isStartOf isStart⟩)

theorem isEmpty_eq_false (someNodeMessages : messages.filter isNodeMessage ≠ []) : messages.isEmpty = false := by
  rw [List.isEmpty_eq_false_iff]
  intro noMessages
  apply someNodeMessages
  rw [noMessages, List.filter_nil]

theorem amend_eq (artificialItem : Item) (now : Int) (someNodeMessages : (messages.filter isNodeMessage) ≠ [])
    (amendable : ¬ (execution.status = .success ∧ execution.data.isSome)) :
    amend artificialItem now messages (some execution) =
      let state := execution.nodes.foldl (amendNode artificialItem (messages.filter isNodeMessage))
        { runExecutionData := runExecutionDataOf execution, lastNodeRunTimestamp := none }
      some { execution with
        status := if execution.status = .error then .error else .crashed
        stoppedAt := toStoppedAt state.lastNodeRunTimestamp (toRelevantMessages messages).2
        data := some state.runExecutionData } := by
  have someMessages := isEmpty_eq_false someNodeMessages
  have notDone : (decide (execution.status = .success) && execution.data.isSome) = false := by
    rw [← Bool.not_eq_true, Bool.and_eq_true, decide_eq_true_eq]
    exact amendable
  rw [← List.isEmpty_eq_false_iff] at someNodeMessages
  rw [amend, someMessages, if_neg Bool.false_ne_true]
  simp only [toRelevantMessages_fst, someNodeMessages, notDone, Bool.false_eq_true, ↓reduceIte]

theorem amendable_of_amend {amended : IExecutionResponse Item} (someNodeMessages : messages.filter isNodeMessage ≠ [])
    (isAmended : amend artificialItem now messages (some execution) = some amended) :
    ¬ (execution.status = .success ∧ execution.data.isSome) := by
  intro done
  rw [← decide_eq_true_eq (p := execution.status = .success), ← Bool.and_eq_true] at done
  have someMessages := isEmpty_eq_false someNodeMessages
  rw [← List.isEmpty_eq_false_iff] at someNodeMessages
  rw [amend, someMessages, if_neg Bool.false_ne_true] at isAmended
  simp only [toRelevantMessages_fst, someNodeMessages, done, Bool.false_eq_true, ↓reduceIte, reduceCtorEq] at isAmended

/-- When a node is lost, the service returns the execution with every lost node recovered. -/
theorem amend_recovers (artificialItem : Item) (now : Int) {messages : List EventMessage}
    (amendable : ¬ (execution.status = .success ∧ execution.data.isSome)) (isLost : lostNodes messages execution ≠ []) :
    ∃ amended, amend artificialItem now messages (some execution) = some amended ∧
      (∀ node ∈ lostNodes messages execution, statusOf amended node =
        some (if finishedCount messages node = 0 then .crashed else .success)) ∧
      (∀ node ∉ lostNodes messages execution, statusOf amended node = statusOf execution node) ∧
      (runExecutionDataOf amended).lastNodeExecuted = (lostNodes messages execution).getLast? ∧
      amended.stoppedAt = (lostNodes messages execution).getLast?.bind (firstEnd messages) := by
  obtain ⟨last, isLast⟩ := Option.isSome_iff_exists.mp (List.getLast?_isSome.mpr isLost)
  have lastLost := List.mem_of_getLast? isLast
  obtain ⟨ts, isEnd⟩ := exists_firstEnd lastLost
  have recovered := foldl_amendNode_nodes artificialItem messages execution
  obtain ⟨lastNode, timestamp⟩ := recovered.last last isLast
  rw [firstEnd_nodeMessages, isEnd] at timestamp
  refine ⟨_, amend_eq artificialItem now (nodeMessages_ne_nil isLost) amendable, ?_, ?_, lastNode.trans isLast.symm, ?_⟩
  · intro node member
    obtain ⟨started, _, isRun⟩ := recovered.runOf node member
    rw [statusOf, runExecutionDataOf, Option.getD_some, isRun]
    simp only [finishedCount_eq_zero_iff, find?_nodeMessages fun _ => isNodeMessage_of_isFinishOf]
    cases messages.find? (isFinishOf node) <;> rfl
  · intro node notMember
    rw [statusOf, runExecutionDataOf, Option.getD_some, recovered.others node notMember, ← statusOf]
  · rw [timestamp, isLast, Option.bind_some, isEnd]
    rfl

/-- The service follows the log exactly when the order of the workflow agrees with it and no node is under way again. -/
theorem followsLog_iff (artificialItem : Item) (now : Int) {messages : List EventMessage}
    (isLost : lostNodes messages execution ≠ []) :
    FollowsLog artificialItem now messages execution ↔
      ¬ (execution.status = .success ∧ execution.data.isSome) ∧ OrderAgrees messages execution := by
  by_cases amendable : execution.status = .success ∧ execution.data.isSome
  · simp only [amendable, and_self, not_true_eq_false, false_and, iff_false]
    intro ⟨amended, isAmended, _⟩
    exact amendable_of_amend (nodeMessages_ne_nil isLost) isAmended amendable
  rw [and_iff_right amendable]
  obtain ⟨amended, isAmended, recovered, others, last, stopped⟩ :=
    amend_recovers artificialItem now amendable isLost
  have marks : ∀ node ∈ lostNodes messages execution,
      ((statusOf amended node = some .crashed ↔ finishedCount messages node < startedCount messages node) ↔
        finishedCount messages node = 0 ∨ startedCount messages node ≤ finishedCount messages node) := by
    intro node member
    have started := (mem_lostNodes.mp member).2.1
    rw [recovered node member]
    split
    next none => simp only [none, started, true_or]
    next some =>
      simp only [Option.some.injEq, reduceCtorEq, false_iff, Nat.not_lt, some, false_or]
  constructor
  · intro ⟨amended', isAmended', marked, last', stopped'⟩
    obtain rfl := Option.some.inj (isAmended.symm.trans isAmended')
    refine ⟨?_, last.symm.trans last', stopped.symm.trans stopped'⟩
    intro node member
    obtain ⟨inWorkflow, _, notSaved⟩ := mem_lostNodes.mp member
    exact (marks node member).mp (marked node inWorkflow notSaved).1
  · intro agrees
    refine ⟨amended, isAmended, ?_, last.trans agrees.lastStarts, stopped.trans agrees.lastEnds⟩
    intro node inWorkflow notSaved
    by_cases member : node ∈ lostNodes messages execution
    · refine ⟨(marks node member).mpr (agrees.noSecondRun node member), fun started same => ?_⟩
      rw [recovered node member, if_neg (by omega)]
    · have notStarted : startedCount messages node = 0 := by
        by_contra started
        exact member (mem_lostNodes.mpr ⟨inWorkflow, Nat.pos_of_ne_zero started, notSaved⟩)
      have unmarked : statusOf execution node = none := by
        rw [statusOf, OrderedMap.get?_eq_none.mpr fun inside => notSaved (OrderedMap.has_iff.mpr inside)]
      rw [others node member, unmarked, notStarted]
      simp

end

/-- An execution that was cut off before anything was saved. -/
def truncated (nodes : List String) : IExecutionResponse Unit :=
  { nodes, status := .running, stoppedAt := none, data := none }

def messageOf (eventName : String) (ts : Int) (node : String) : EventMessage := { eventName, ts, nodeName := some node }

/-- `A` has finished and `B` is under way. -/
theorem followsLog_truncated : FollowsLog () 0
    [messageOf "n8n.node.started" 0 "A", messageOf "n8n.node.finished" 5 "A", messageOf "n8n.node.started" 6 "B"]
    (truncated ["A", "B"]) :=
  (followsLog_iff () 0 (by decide)).mpr ⟨by decide, ⟨by decide, by decide, by decide⟩⟩

/-- A node that a loop runs again has a finish from its first run, and is taken for a success. -/
theorem not_followsLog_loop : ¬ FollowsLog () 0
    [messageOf "n8n.node.started" 0 "A", messageOf "n8n.node.finished" 1 "A", messageOf "n8n.node.started" 2 "A"]
    (truncated ["A"]) := by
  intro ⟨amended, isAmended, marked, _⟩
  obtain rfl := Option.some.inj isAmended
  exact absurd ((marked "A" (by decide) (by decide)).1.mpr (by decide)) (by decide)

end N8n.ExecutionRecovery
