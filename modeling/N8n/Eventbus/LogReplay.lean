import N8n.Eventbus.EventLog

/-! # Replay of the event log

What a replay of the log should give, and when `getMessages` gives it.  Messages
of executions and of AI nodes are never rebuilt, and U+2028 or U+2029 in a message
or a confirmation hides it from the reader; for the executions, a node event
behind a finished one makes it unfinished again.
-/

namespace N8n.Eventbus

open Json

/-! ## What a replay should give -/

/-- The messages without a later confirmation, in order. -/
def unsent : List LogRecord → List EventMessage
  | [] => []
  | .confirm _ :: later => unsent later
  | .message msg :: later =>
    if later.any (LogRecord.confirms msg.id) then unsent later else msg.toEventMessage :: unsent later

namespace EventMessage

def isStart (msg : EventMessage) : Bool := msg.eventName == "n8n.workflow.started"

def isFinish (msg : EventMessage) : Bool :=
  ["n8n.workflow.success", "n8n.workflow.failed", "n8n.execution.throttled",
    "n8n.execution.started-during-bootup"].contains msg.eventName

def isNodeEvent (msg : EventMessage) : Bool := eventNamesNode.contains msg.eventName

def isLifecycle (msg : EventMessage) : Bool := msg.isStart || msg.isFinish

def isEventOf (executionId : String) (msg : EventMessage) : Bool :=
  msg.executionId? == some executionId && (msg.isLifecycle || msg.isNodeEvent)

end EventMessage

def messages (log : List LogRecord) : List EventMessage :=
  log.filterMap fun record => match record with
    | .message msg => some msg.toEventMessage
    | .confirm _ => none

def eventsOf (executionId : String) (log : List LogRecord) : List EventMessage :=
  (messages log).filter (EventMessage.isEventOf executionId)

def lastLifecycle (events : List EventMessage) : Option EventMessage :=
  events.reverse.find? EventMessage.isLifecycle

/-- The events behind the last lifecycle event, which are node events. -/
def nodesSince (events : List EventMessage) : List EventMessage :=
  (events.reverse.takeWhile fun msg => !msg.isLifecycle).reverse

/-- What an execution with these events is unfinished with, if it is unfinished. -/
def unfinished (events : List EventMessage) : Option (List EventMessage) :=
  match lastLifecycle events with
  | some last => if last.isStart then some (last :: nodesSince events) else none
  | none => if events.isEmpty then none else some events

structure ReplayIsExact (results : ReadMessagesFromLogFileResult) (log : List LogRecord) : Prop where
  unsent : results.loggedMessages = unsent log
  unfinished : ∀ executionId,
    results.unfinishedExecutions.get? executionId = unfinished (eventsOf executionId log)

/-! ## When it gives that -/

/-- The events of an execution lead to the same result when only the readable ones are seen. -/
structure EventsReplayable (events : List EventMessage) : Prop where
  started : ∀ last, lastLifecycle events = some last → last.isStart = true →
    last.readable = true ∧ ∀ msg ∈ nodesSince events, msg.readable = true
  finished : ∀ last, lastLifecycle events = some last → last.isStart = false →
    ∀ msg, (events.filter EventMessage.readable).getLast? = some msg → msg.isFinish = true
  nodesOnly : lastLifecycle events = none → ∀ msg ∈ events, msg.readable = true

structure Replayable (log : List LogRecord) : Prop where
  /-- A message that is not confirmed later is readable. -/
  unconfirmed : ∀ before msg later, log = before ++ .message msg :: later →
    later.any (LogRecord.confirms msg.id) = false → msg.readable = true
  /-- A readable message that is confirmed later is confirmed on a line that is not cut. -/
  confirmed : ∀ before msg later, log = before ++ .message msg :: later → msg.readable = true →
    later.any (LogRecord.confirms msg.id) = true → later.any (LogRecord.confirmsUncut msg.id) = true
  executions : ∀ executionId, EventsReplayable (eventsOf executionId log)

/-! ## Unsent messages -/

/-- The messages that stay in the results. -/
def kept : List LogRecord → List EventMessage
  | [] => []
  | .confirm _ :: later => kept later
  | .message msg :: later =>
    if msg.readable && !later.any (LogRecord.confirmsUncut msg.id) then msg.toEventMessage :: kept later
    else kept later

variable {log : List LogRecord}

theorem any_confirms_of_uncut {id : String} (uncut : log.any (LogRecord.confirmsUncut id) = true) :
    log.any (LogRecord.confirms id) = true := by
  obtain ⟨record, member, confirms⟩ := List.any_eq_true.mp uncut
  exact List.any_eq_true.mpr ⟨record, member, (Bool.and_eq_true_iff.mp confirms).1⟩

namespace ReadMessagesFromLogFileResult

theorem loggedMessages_readRecord (results : ReadMessagesFromLogFileResult) (record : LogRecord) :
    (results.readRecord .unsent record).loggedMessages =
      results.loggedMessages.filter (fun msg => !record.confirmsUncut msg.id) ++ kept [record] := by
  cases record with
  | message msg =>
    cases readable : msg.readable <;>
      simp [readRecord, readable, readMessage, kept, LogRecord.confirmsUncut, LogRecord.confirms]
  | confirm msg =>
    have same : ∀ other : EventMessage, (some other.id != some msg.confirm) = !(msg.confirm == other.id) := by
      intro other
      rw [bne, Option.some_beq_some, Bool.beq_comm]
    cases cut : isCut msg.serialize with
    | true => simp [readRecord, cut, kept, LogRecord.confirmsUncut, LogRecord.serialize]
    | false =>
      simp only [readRecord, cut, readConfirm, kept, LogRecord.confirmsUncut, LogRecord.confirms, LogRecord.serialize,
        Bool.not_false, Bool.and_true, List.append_nil]
      exact List.filter_congr fun other _ => same other

theorem loggedMessages_foldl (results : ReadMessagesFromLogFileResult) (log : List LogRecord) :
    (log.foldl (readRecord .unsent) results).loggedMessages =
      results.loggedMessages.filter (fun msg => !log.any (LogRecord.confirmsUncut msg.id)) ++ kept log := by
  induction log generalizing results with
  | nil => simp [kept]
  | cons record later ih =>
    have here : (kept [record]).filter (fun msg => !later.any (LogRecord.confirmsUncut msg.id)) ++ kept later =
        kept (record :: later) := by
      cases record with
      | message msg =>
        cases readable : msg.readable <;> cases confirmed : later.any (LogRecord.confirmsUncut msg.id) <;>
          simp [kept, readable, confirmed]
      | confirm msg => rfl
    rw [List.foldl_cons, ih, loggedMessages_readRecord, List.filter_append, List.filter_filter,
      List.append_assoc, here]
    simp [Bool.and_comm]

end ReadMessagesFromLogFileResult

variable {msg : EventMessage}

theorem readable_of_mem_kept (member : msg ∈ kept log) :
    msg.readable = true := by
  induction log with
  | nil => cases member
  | cons record later ih =>
    cases record with
    | confirm _ => exact ih member
    | message first =>
      rw [kept] at member
      split at member
      next isKept =>
        rcases List.mem_cons.mp member with rfl | behind
        · exact (Bool.and_eq_true_iff.mp isKept).1
        · exact ih behind
      next => exact ih member

theorem unsent_sublist_kept (readable : ∀ msg ∈ unsent log, msg.readable = true) :
    (unsent log).Sublist (kept log) := by
  induction log with
  | nil => exact List.Sublist.refl _
  | cons record later ih =>
    cases record with
    | confirm _ => exact ih readable
    | message first =>
      rw [unsent] at readable ⊢
      rw [kept]
      split at readable
      next confirmed =>
        rw [if_pos confirmed]
        have behind := ih readable
        split
        · exact behind.cons _
        · exact behind
      next unconfirmed =>
        have uncut : later.any (LogRecord.confirmsUncut first.id) = false := by
          rw [Bool.eq_false_iff]
          exact fun isUncut => unconfirmed (any_confirms_of_uncut isUncut)
        have firstReadable := readable _ List.mem_cons_self
        have behind := ih fun msg member => readable msg (List.mem_cons_of_mem _ member)
        rw [if_neg unconfirmed, firstReadable, uncut]
        exact behind.cons_cons _

/-- What must hold of a message and the records behind it. -/
def SeenAsIs (msg : EventMessage) (later : List LogRecord) : Prop :=
  (later.any (LogRecord.confirms msg.id) = false → msg.readable = true) ∧
    (msg.readable = true → later.any (LogRecord.confirms msg.id) = true →
      later.any (LogRecord.confirmsUncut msg.id) = true)

theorem forall_split_cons {P : EventMessageTypes → List LogRecord → Prop} {record : LogRecord} :
    (∀ before msg later, record :: log = before ++ .message msg :: later → P msg later) ↔
      (∀ msg, record = .message msg → P msg log) ∧
        ∀ before msg later, log = before ++ .message msg :: later → P msg later := by
  constructor
  · intro all
    exact ⟨fun msg isMessage => all [] msg log (by rw [isMessage]; rfl),
      fun before msg later isLog => all (record :: before) msg later (by rw [isLog]; rfl)⟩
  · rintro ⟨here, behind⟩ before msg later isLog
    cases before with
    | nil =>
      obtain ⟨isMessage, rfl⟩ := List.cons.inj isLog
      exact here msg isMessage
    | cons _ before => exact behind before msg later (List.cons.inj isLog).2

theorem kept_eq_unsent_iff (log : List LogRecord) :
    kept log = unsent log ↔
      ∀ before msg later, log = before ++ .message msg :: later → SeenAsIs msg.toEventMessage later := by
  induction log with
  | nil => simp [kept, unsent]
  | cons record later ih =>
    rw [forall_split_cons, ← ih]
    cases record with
    | confirm _ => simp [kept, unsent]
    | message msg =>
      have isHere : (∀ msg', LogRecord.message msg = .message msg' → SeenAsIs msg'.toEventMessage later) ↔
          SeenAsIs msg.toEventMessage later := by simp
      rw [isHere, kept, unsent, SeenAsIs]
      cases confirmed : later.any (LogRecord.confirms msg.id) with
      | false =>
        have uncut : later.any (LogRecord.confirmsUncut msg.id) = false := by
          rw [Bool.eq_false_iff]
          intro isUncut
          rw [any_confirms_of_uncut isUncut] at confirmed
          cases confirmed
        cases readable : msg.readable with
        | true => simp [uncut]
        | false =>
          have missing : kept later ≠ msg.toEventMessage :: unsent later := by
            intro same
            have member : msg.toEventMessage ∈ kept later := by rw [same]; exact List.mem_cons_self
            rw [readable_of_mem_kept member] at readable
            cases readable
          simp [missing]
      | true =>
        cases readable : msg.readable with
        | false => simp
        | true =>
          cases uncut : later.any (LogRecord.confirmsUncut msg.id) with
          | true => simp
          | false =>
            have tooMany : msg.toEventMessage :: kept later ≠ unsent later := by
              intro same
              have allReadable : ∀ other ∈ unsent later, other.readable = true := by
                intro other member
                rw [← same] at member
                rcases List.mem_cons.mp member with rfl | behind
                · exact readable
                · exact readable_of_mem_kept behind
              have shorter := (unsent_sublist_kept allReadable).length_le
              rw [← same, List.length_cons] at shorter
              omega
            simp [tooMany]

/-! ## Unfinished executions -/

/-- What the reader does with an event of an execution. -/
def track (current : Option (List EventMessage)) (msg : EventMessage) : Option (List EventMessage) :=
  if msg.isStart then some [msg]
  else if msg.isFinish then none
  else some (current.getD [] ++ [msg])

theorem get?_withExecution (unfinished : OrderedMap String (List EventMessage)) (executionId : String) :
    ((withExecution unfinished executionId).get? executionId).getD [] = (unfinished.get? executionId).getD [] := by
  rw [withExecution]
  split
  next => rfl
  next missing =>
    have absent : unfinished.get? executionId = none := OrderedMap.get?_eq_none.mpr (by simpa using missing)
    simp [absent]

theorem get?_withExecution_of_ne (unfinished : OrderedMap String (List EventMessage)) {executionId other : String}
    (different : other ≠ executionId) : (withExecution unfinished executionId).get? other = unfinished.get? other := by
  rw [withExecution]
  split
  · rfl
  · exact OrderedMap.get?_set_of_ne _ _ different

theorem get?_trackExecution_of_ne (unfinished : OrderedMap String (List EventMessage)) {executionId other : String}
    (msg : EventMessage) (different : other ≠ executionId) :
    (trackExecution unfinished executionId msg).get? other = unfinished.get? other := by
  unfold trackExecution
  split
  · rw [OrderedMap.get?_set_of_ne _ _ different, get?_withExecution_of_ne _ different]
  all_goals first
    | exact OrderedMap.get?_erase_of_ne _ different
    | rw [pushMessage, OrderedMap.get?_set_of_ne _ _ different, get?_withExecution_of_ne _ different]
    | rfl

theorem get?_trackExecution (unfinished : OrderedMap String (List EventMessage)) (executionId : String)
    (msg : EventMessage) :
    (trackExecution unfinished executionId msg).get? executionId =
      if msg.isLifecycle || msg.isNodeEvent then track (unfinished.get? executionId) msg
      else unfinished.get? executionId := by
  have kinds : msg.isStart = (msg.eventName == "n8n.workflow.started") ∧
      msg.isFinish = ["n8n.workflow.success", "n8n.workflow.failed", "n8n.execution.throttled",
        "n8n.execution.started-during-bootup"].contains msg.eventName ∧
      msg.isNodeEvent = ["n8n.node.started", "n8n.node.finished"].contains msg.eventName := ⟨rfl, rfl, rfl⟩
  obtain ⟨isStart, isFinish, isNodeEvent⟩ := kinds
  unfold trackExecution
  split
  case h_8 notStarted notSuccess notFailed notThrottled notStartedDuringBootup notNodeStarted notNodeFinished =>
    have noKind : (msg.isLifecycle || msg.isNodeEvent) = false := by
      simp only [EventMessage.isLifecycle, isStart, isFinish, isNodeEvent, Bool.or_eq_false_iff, beq_eq_false_iff_ne,
        List.contains_eq_mem, List.mem_cons, List.not_mem_nil, or_false, decide_eq_false_iff_not, not_or]
      exact ⟨⟨notStarted, notSuccess, notFailed, notThrottled, notStartedDuringBootup⟩, notNodeStarted, notNodeFinished⟩
    rw [noKind]
    rfl
  all_goals
    next named =>
    rw [named] at isStart isFinish isNodeEvent
    simp [EventMessage.isLifecycle, isStart, isFinish, isNodeEvent, track, pushMessage, get?_withExecution]

namespace ReadMessagesFromLogFileResult

theorem get?_readMessage (results : ReadMessagesFromLogFileResult) (msg : EventMessage) (executionId : String) :
    (results.readMessage msg).unfinishedExecutions.get? executionId =
      if msg.isEventOf executionId then track (results.unfinishedExecutions.get? executionId) msg
      else results.unfinishedExecutions.get? executionId := by
  rw [readMessage, EventMessage.isEventOf]
  cases isExecution : msg.executionId? with
  | none => simp
  | some other =>
    by_cases unnamed : msg.eventName = ""
    · have noKind : (msg.isLifecycle || msg.isNodeEvent) = false := by
        simp [EventMessage.isLifecycle, EventMessage.isStart, EventMessage.isFinish, EventMessage.isNodeEvent,
          eventNamesNode, unnamed]
      simp [unnamed, noKind]
    · by_cases same : other = executionId
      · subst same
        simp [unnamed, get?_trackExecution]
      · have different : executionId ≠ other := Ne.symm same
        simp [unnamed, same, get?_trackExecution_of_ne _ _ different]

theorem get?_readRecord (mode : EventMessageReturnMode) (results : ReadMessagesFromLogFileResult)
    (record : LogRecord) (executionId : String) :
    (results.readRecord mode record).unfinishedExecutions.get? executionId =
      ((eventsOf executionId [record]).filter EventMessage.readable).foldl track
        (results.unfinishedExecutions.get? executionId) := by
  cases record with
  | message msg =>
    cases readable : msg.readable <;> cases isEvent : msg.isEventOf executionId <;>
      simp [readRecord, eventsOf, messages, readable, isEvent, get?_readMessage]
  | confirm msg =>
    have unchanged : (results.readRecord mode (.confirm msg)).unfinishedExecutions = results.unfinishedExecutions := by
      rw [readRecord]
      split
      · rfl
      · rw [readConfirm]
        split <;> rfl
    rw [unchanged]
    rfl

theorem eventsOf_cons (executionId : String) (record : LogRecord) (log : List LogRecord) :
    eventsOf executionId (record :: log) = eventsOf executionId [record] ++ eventsOf executionId log := by
  rw [eventsOf, messages, ← List.singleton_append, List.filterMap_append, List.filter_append]
  rfl

theorem get?_foldl (mode : EventMessageReturnMode) (results : ReadMessagesFromLogFileResult)
    (log : List LogRecord) (executionId : String) :
    (log.foldl (readRecord mode) results).unfinishedExecutions.get? executionId =
      ((eventsOf executionId log).filter EventMessage.readable).foldl track
        (results.unfinishedExecutions.get? executionId) := by
  induction log generalizing results with
  | nil => rfl
  | cons record log ih =>
    rw [List.foldl_cons, ih, get?_readRecord, eventsOf_cons executionId record log,
      List.filter_append, List.foldl_append]

end ReadMessagesFromLogFileResult

theorem not_isStart_of_isFinish (finish : msg.isFinish = true) : msg.isStart = false := by
  simp only [EventMessage.isFinish, List.contains_eq_mem, List.mem_cons, List.not_mem_nil, or_false,
    decide_eq_true_eq] at finish
  rcases finish with named | named | named | named <;> rw [EventMessage.isStart, named] <;> decide

theorem track_of_not_isLifecycle (node : msg.isLifecycle = false) (current : Option (List EventMessage)) :
    track current msg = some (current.getD [] ++ [msg]) := by
  rw [EventMessage.isLifecycle, Bool.or_eq_false_iff] at node
  simp [track, node]

theorem foldl_track_nodes {nodes : List EventMessage} (allNodes : ∀ msg ∈ nodes, msg.isLifecycle = false)
    (before : List EventMessage) : nodes.foldl track (some before) = some (before ++ nodes) := by
  induction nodes generalizing before with
  | nil => simp
  | cons msg nodes ih =>
    have here := track_of_not_isLifecycle (allNodes msg List.mem_cons_self) (some before)
    have others := ih fun other member => allNodes other (List.mem_cons_of_mem _ member)
    simp [here, others]

theorem foldl_track_onlyNodes {nodes : List EventMessage} (allNodes : ∀ msg ∈ nodes, msg.isLifecycle = false) :
    nodes.foldl track none = if nodes.isEmpty then none else some nodes := by
  cases nodes with
  | nil => rfl
  | cons msg nodes =>
    have here := track_of_not_isLifecycle (allNodes msg List.mem_cons_self) none
    have others := foldl_track_nodes (fun other member => allNodes other (List.mem_cons_of_mem _ member)) [msg]
    simpa [here] using others

theorem foldl_track_eq_none_iff (events : List EventMessage) :
    events.foldl track none = none ↔ ∀ last, events.getLast? = some last → last.isFinish = true := by
  rcases List.eq_nil_or_concat events with rfl | ⟨before, last, rfl⟩
  · simp
  · rw [List.concat_eq_append, List.foldl_append, List.getLast?_append]
    cases finish : last.isFinish with
    | true => simp [track, finish, not_isStart_of_isFinish finish]
    | false => cases start : last.isStart <;> simp [track, finish, start]

variable {events : List EventMessage}

theorem mem_of_foldl_track {current : Option (List EventMessage)} {result : List EventMessage}
    (tracks : events.foldl track current = some result) :
    ∀ msg ∈ result, msg ∈ events ∨ msg ∈ current.getD [] := by
  induction events generalizing current with
  | nil =>
    intro msg member
    rw [List.foldl_nil] at tracks
    exact .inr (by simpa [tracks] using member)
  | cons event events ih =>
    intro msg member
    rcases ih tracks msg member with behind | before
    · exact .inl (List.mem_cons_of_mem _ behind)
    · rw [track] at before
      split at before
      · exact .inl (by simp_all)
      · split at before
        · cases before
        · simp only [Option.getD_some, List.mem_append, List.mem_singleton] at before
          rcases before with before | rfl
          · exact .inr before
          · exact .inl List.mem_cons_self

theorem eq_of_lastLifecycle {last : EventMessage} (isLast : lastLifecycle events = some last) :
    last.isLifecycle = true ∧ (∃ before, events = before ++ last :: nodesSince events) ∧
      ∀ msg ∈ nodesSince events, msg.isLifecycle = false := by
  obtain ⟨lifecycle, since, before, isReverse, allNodes⟩ := List.find?_eq_some_iff_append.mp isLast
  have isNode : ∀ msg ∈ since, (!msg.isLifecycle) = true := by simpa using allNodes
  have isSince : nodesSince events = since.reverse := by
    rw [nodesSince, isReverse, List.takeWhile_append_of_pos isNode, List.takeWhile_cons_of_neg (by simp [lifecycle]),
      List.append_nil]
  have isEvents : events = before.reverse ++ last :: since.reverse := by
    have reversed := congrArg List.reverse isReverse
    simpa using reversed
  refine ⟨lifecycle, ⟨before.reverse, by rw [isSince]; exact isEvents⟩, fun msg member => ?_⟩
  rw [isSince, List.mem_reverse] at member
  simpa using isNode msg member

theorem not_isLifecycle_of_lastLifecycle (noneLast : lastLifecycle events = none) :
    ∀ msg ∈ events, msg.isLifecycle = false := by
  simpa [lastLifecycle] using noneLast

theorem unfinished_of_started {last : EventMessage} (isLast : lastLifecycle events = some last)
    (start : last.isStart = true) :
    (events.filter EventMessage.readable).foldl track none = unfinished events ↔
      last.readable = true ∧ ∀ msg ∈ nodesSince events, msg.readable = true := by
  obtain ⟨_, ⟨before, isEvents⟩, allNodes⟩ := eq_of_lastLifecycle isLast
  have expected : unfinished events = some (last :: nodesSince events) := by simp [unfinished, isLast, start]
  rw [expected]
  constructor
  · intro tracks
    have fromEvents := mem_of_foldl_track tracks
    have isReadable : ∀ msg ∈ last :: nodesSince events, msg.readable = true := by
      intro msg member
      rcases fromEvents msg member with seen | nothing
      · exact (List.mem_filter.mp seen).2
      · cases nothing
    exact ⟨isReadable last List.mem_cons_self, fun msg member => isReadable msg (List.mem_cons_of_mem _ member)⟩
  · rintro ⟨lastReadable, nodesReadable⟩
    have seen : events.filter EventMessage.readable =
        before.filter EventMessage.readable ++ last :: nodesSince events := by
      conv_lhs => rw [isEvents]
      rw [List.filter_append, List.filter_cons_of_pos lastReadable, List.filter_eq_self.mpr nodesReadable]
    rw [seen, List.foldl_append, List.foldl_cons, track, if_pos start, foldl_track_nodes allNodes]
    rfl

theorem eventsReplayable_iff (events : List EventMessage) :
    EventsReplayable events ↔
      match lastLifecycle events with
      | some last =>
        if last.isStart then last.readable = true ∧ ∀ msg ∈ nodesSince events, msg.readable = true
        else ∀ msg, (events.filter EventMessage.readable).getLast? = some msg → msg.isFinish = true
      | none => ∀ msg ∈ events, msg.readable = true := by
  constructor
  · intro replayable
    cases isLast : lastLifecycle events with
    | none => exact replayable.nodesOnly isLast
    | some last =>
      cases start : last.isStart with
      | true => simpa [start] using replayable.started last isLast start
      | false => simpa [start] using replayable.finished last isLast start
  · intro condition
    refine ⟨fun last isLast start => ?_, fun last isLast start => ?_, fun noneLast => ?_⟩
    · simpa [isLast, start] using condition
    · simpa [isLast, start] using condition
    · simpa [noneLast] using condition

/-- The reader gives what it should for an execution exactly if its events are replayable. -/
theorem foldl_track_eq_unfinished_iff (events : List EventMessage) :
    (events.filter EventMessage.readable).foldl track none = unfinished events ↔ EventsReplayable events := by
  rw [eventsReplayable_iff]
  cases isLast : lastLifecycle events with
  | some last =>
    cases start : last.isStart with
    | true => simpa [start] using unfinished_of_started isLast start
    | false =>
      have expected : unfinished events = none := by simp [unfinished, isLast, start]
      simpa [start, expected] using foldl_track_eq_none_iff (events.filter EventMessage.readable)
  | none =>
    have allNodes := not_isLifecycle_of_lastLifecycle isLast
    have seenNodes : ∀ msg ∈ events.filter EventMessage.readable, msg.isLifecycle = false := fun msg member =>
      allNodes msg (List.mem_filter.mp member).1
    have expected : unfinished events = if events.isEmpty then none else some events := by simp [unfinished, isLast]
    rw [expected, foldl_track_onlyNodes seenNodes]
    constructor
    · intro same
      have isAll : events.filter EventMessage.readable = events := by
        cases events with
        | nil => rfl
        | cons first others =>
          have notEmpty : (first :: others).isEmpty = false := rfl
          rw [notEmpty, if_neg Bool.false_ne_true] at same
          split at same
          · cases same
          · exact Option.some.inj same
      exact List.filter_eq_self.mp isAll
    · intro allReadable
      rw [List.filter_eq_self.mpr allReadable]

/-! ## The results of a replay -/

theorem replayIsExact_iff (log : List LogRecord) :
    ReplayIsExact (log.foldl (ReadMessagesFromLogFileResult.readRecord .unsent) {}) log ↔ Replayable log := by
  have logged := ReadMessagesFromLogFileResult.loggedMessages_foldl {} log
  have tracked := ReadMessagesFromLogFileResult.get?_foldl .unsent {} log
  rw [List.filter_nil, List.nil_append] at logged
  constructor
  · intro isExact
    have unsentExact := isExact.unsent
    rw [logged, kept_eq_unsent_iff] at unsentExact
    refine ⟨fun before msg later isLog => (unsentExact before msg later isLog).1,
      fun before msg later isLog => (unsentExact before msg later isLog).2, fun executionId => ?_⟩
    have executionExact := isExact.unfinished executionId
    rw [tracked] at executionExact
    exact (foldl_track_eq_unfinished_iff _).mp executionExact
  · intro replayable
    refine ⟨?_, fun executionId => ?_⟩
    · rw [logged, kept_eq_unsent_iff]
      exact fun before msg later isLog => ⟨replayable.unconfirmed before msg later isLog,
        replayable.confirmed before msg later isLog⟩
    · rw [tracked]
      exact (foldl_track_eq_unfinished_iff _).mpr (replayable.executions executionId)

/-- After any commands, `getMessages('unsent')` and the unfinished executions are exact for the
    records in the files that are read if and only if these records are replayable. -/
theorem getMessages_exact_iff (options : MessageEventBusLogWriterOptions) (commands : List LogCommand)
    (defaults : Defaults) (keepLogCount logHistory : Nat) :
    ReplayIsExact
        (getMessages defaults (LogWorker.run options commands).files keepLogCount .unsent logHistory)
        ((EventLog.run options commands).retained options keepLogCount logHistory) ↔
      Replayable ((EventLog.run options commands).retained options keepLogCount logHistory) := by
  rw [(EventLog.holds_run options commands).getMessages_eq]
  exact replayIsExact_iff _

/-! ### A throttled execution -/

namespace Throttled

def started : EventMessageTypes where
  __type := .workflow
  id := "1"
  ts := "2025-01-01T00:00:00.000Z"
  eventName := "n8n.workflow.started"
  message := "n8n.workflow.started"
  payload := some [("executionId", .string "7")]
  named := by decide

def throttled : EventMessageTypes where
  __type := .execution
  id := "2"
  ts := "2025-01-01T00:00:01.000Z"
  eventName := "n8n.execution.throttled"
  message := "n8n.execution.throttled"
  payload := some [("executionId", .string "7")]
  named := by decide

def commands : List LogCommand :=
  [.startLogging, .appendMessageToLog started, .confirmMessageSent ⟨"1", "2025-01-01T00:00:02.000Z", none⟩,
    .appendMessageToLog throttled]

def options : MessageEventBusLogWriterOptions := ⟨3, 10240⟩

theorem getMessages_not_exact :
    ¬ ReplayIsExact (getMessages ⟨"3", "2025-01-01T00:00:03.000Z"⟩ (LogWorker.run options commands).files 3 .unsent 1)
      ((EventLog.run options commands).retained options 3 1) := by
  rw [(EventLog.holds_run options commands).getMessages_eq, replayIsExact_iff]
  intro replayable
  have unconfirmed := replayable.unconfirmed
    [.message started, .confirm ⟨"1", "2025-01-01T00:00:02.000Z", none⟩] throttled [] rfl rfl
  have notRebuilt : throttled.readable = false := rfl
  rw [notRebuilt] at unconfirmed
  cases unconfirmed

end Throttled

end N8n.Eventbus
