import N8n.Eventbus.LogReplay

/-! # Messages of an execution

`getMessagesByExecutionId` of `packages/cli/src/eventbus/message-event-bus-writer`:
it reads the files with the counters below the number of kept files, so it leaves
out the oldest of them, which the rotation keeps and `getMessages` reads.
-/

namespace N8n.Eventbus

open Json

/-! ## The reader -/

/-- `json.payload?.executionId === executionId`, then `getEventMessageObjectByType`. -/
def readLineByExecutionId (defaults : Defaults) (executionId : String) (line : List Char) : Option EventMessage :=
  match parse line with
  | none => none
  | some json =>
    if isEventMessageOptions json = some true ∧ (json.field? "__type").isSome = true ∧
        string? ((json.field? "payload").bind (Value.field? "executionId")) = some executionId then
      getEventMessageObjectByType defaults json
    else none

def readFromFileByExecutionId (defaults : Defaults) (executionId : String) : Option (List Char) → List EventMessage
  | none => []
  | some text => (lines text).filterMap (readLineByExecutionId defaults executionId)

def pushedByExecutionId (defaults : Defaults) (files : LogFiles) (executionId : String) (logCount : Nat) :
    List EventMessage :=
  (List.range logCount).flatMap fun counter => readFromFileByExecutionId defaults executionId (files counter)

/-- `millis` is the time that the text of a `ts` stands for; the sort is stable. -/
def getMessagesByExecutionId (defaults : Defaults) (millis : String → Int) (files : LogFiles)
    (executionId : String) (keepLogCount logHistory : Nat) : List EventMessage :=
  (pushedByExecutionId defaults files executionId (logCount keepLogCount logHistory)).mergeSort
    fun a b => decide (millis a.ts ≤ millis b.ts)

/-! ## The records that are read -/

def EventMessage.ofExecution (executionId : String) (msg : EventMessage) : Bool :=
  string? (msg.payload.bind (Value.lastField? "executionId")) == some executionId

def messagesOf (executionId : String) (records : List LogRecord) : List EventMessage :=
  (messages records).filter (EventMessage.ofExecution executionId)

variable {defaults : Defaults} {executionId : String}

theorem messagesOf_append (first second : List LogRecord) :
    messagesOf executionId (first ++ second) = messagesOf executionId first ++ messagesOf executionId second := by
  simp [messagesOf, messages, List.filterMap_append]

theorem messagesOf_flatten (segments : List (List LogRecord)) :
    messagesOf executionId segments.flatten = segments.flatMap (messagesOf executionId) := by
  induction segments with
  | nil => rfl
  | cons segment segments ih => rw [List.flatten_cons, messagesOf_append, ih, List.flatMap_cons]

theorem readLineByExecutionId_of_nameless {line : List Char} (nameless : Nameless line) :
    readLineByExecutionId defaults executionId line = none := by
  rw [readLineByExecutionId]
  cases parses : parse line with
  | none => rfl
  | some json =>
    have noEventName : json.field? "eventName" = none :=
      Value.field?_eq_none fun member => absurd (List.all_eq_true.mpr (nameless json parses _ member)) (by decide)
    simp [isEventMessageOptions, noEventName]

theorem readLineByExecutionId_message (msg : EventMessageTypes) :
    readLineByExecutionId defaults executionId (stringify msg.serialize) =
      if msg.ofExecution executionId && rebuiltTypes.contains msg.__type then some msg.toEventMessage else none := by
  have type : (msg.serialize.field? "__type").isSome = true := by
    cases isPayload : msg.payload <;>
      simp [EventMessage.serialize, isPayload, Value.field?, Value.lastField?]
  have id : (msg.serialize.field? "payload").bind (Value.field? "executionId") =
      msg.payload.bind (Value.lastField? "executionId") := by
    cases isPayload : msg.payload <;>
      simp [EventMessage.serialize, isPayload, Value.field?, Value.lastField?]
  simp only [readLineByExecutionId, parse_stringify, isEventMessageOptions_serialize, type, id,
    ReadMessagesFromLogFileResult.getEventMessageObjectByType_serialize, EventMessage.ofExecution]
  by_cases same : string? (msg.payload.bind (Value.lastField? "executionId")) = some executionId <;> simp [same]

theorem readLineByExecutionId_confirm (msg : EventMessageConfirm) :
    readLineByExecutionId defaults executionId (stringify msg.serialize) = none := by
  simp [readLineByExecutionId, parse_stringify, isEventMessageOptions_serialize_confirm]

theorem filterMap_pieces (record : LogRecord) :
    (pieces record.serialize).filterMap (readLineByExecutionId defaults executionId) =
      (messagesOf executionId [record]).filter EventMessage.readable := by
  cases cut : isCut record.serialize with
  | true =>
    have nothing : (pieces record.serialize).filterMap (readLineByExecutionId defaults executionId) = [] := by
      rw [List.filterMap_eq_nil_iff]
      exact fun line isPiece => readLineByExecutionId_of_nameless (nameless_of_isCut cut isPiece)
    rw [nothing]
    cases record with
    | message msg =>
      have isCutLine : isCut msg.serialize = true := cut
      simp [messagesOf, messages, EventMessage.readable, List.filter_cons, isCutLine]
    | confirm msg => rfl
  | false =>
    rw [pieces_of_not_isCut cut]
    cases record with
    | message msg =>
      have uncut : isCut msg.serialize = false := cut
      simp only [LogRecord.serialize, List.filterMap_cons, List.filterMap_nil, readLineByExecutionId_message]
      cases isOf : msg.ofExecution executionId <;> cases rebuilt : rebuiltTypes.contains msg.__type <;>
        simp_all [messagesOf, messages, EventMessage.readable]
    | confirm msg =>
      simp only [LogRecord.serialize, List.filterMap_cons, List.filterMap_nil, readLineByExecutionId_confirm]
      rfl

theorem readFromFileByExecutionId_fileText (records : List LogRecord) :
    readFromFileByExecutionId defaults executionId (some (LogRecord.fileText records)) =
      (messagesOf executionId records).filter EventMessage.readable := by
  rw [readFromFileByExecutionId, LogRecord.fileText, lines_fileText]
  induction records with
  | nil => rfl
  | cons record records ih =>
    rw [List.map_cons, List.flatMap_cons, List.filterMap_append, filterMap_pieces, ih,
      ← List.singleton_append (l := records), messagesOf_append, List.filter_append]

theorem EventLog.Holds.pushed_eq {options : MessageEventBusLogWriterOptions} {worker : LogWorker} {log : EventLog}
    (holds : Holds options worker log) (defaults : Defaults) (executionId : String) (count : Nat) :
    pushedByExecutionId defaults worker.files executionId count =
      ((log.segments.take (min count (options.keepFiles + 1))).flatMap (messagesOf executionId)).filter
        EventMessage.readable := by
  rw [pushedByExecutionId]
  induction count with
  | zero => simp
  | succ count ih =>
    rw [List.range_succ, List.flatMap_append, ih, List.flatMap_singleton, holds.files]
    by_cases kept : count ≤ options.keepFiles
    · rw [if_pos kept, Nat.min_eq_left (by omega), Nat.min_eq_left (by omega), List.take_add_one,
        List.flatMap_append, List.filter_append]
      cases log.segments[count]? with
      | none => rfl
      | some records => simp [readFromFileByExecutionId_fileText]
    · rw [if_neg kept, Nat.min_eq_right (by omega), Nat.min_eq_right (by omega)]
      simp [readFromFileByExecutionId]

/-! ## When no message is missed -/

/-- The result has the messages of the execution in the records, each once, ordered by time. -/
structure IsExactly (millis : String → Int) (executionId : String) (records : List LogRecord)
    (result : List EventMessage) : Prop where
  perm : result.Perm (messagesOf executionId records)
  ordered : result.Pairwise fun a b => millis a.ts ≤ millis b.ts

theorem filter_perm_append_iff {α : Type} (keep : α → Bool) (first second : List α) :
    (first.filter keep).Perm (first ++ second) ↔ second = [] ∧ ∀ item ∈ first, keep item = true := by
  constructor
  · intro perm
    have lengths := perm.length_eq
    have shorter := List.length_filter_le keep first
    rw [List.length_append] at lengths
    refine ⟨List.eq_nil_of_length_eq_zero (by omega), ?_⟩
    exact List.length_filter_eq_length_iff.mp (by omega)
  · rintro ⟨rfl, all⟩
    rw [List.filter_eq_self.mpr all, List.append_nil]

theorem isExactly_mergeSort_iff {millis : String → Int} {records : List LogRecord} (pushed : List EventMessage) :
    IsExactly millis executionId records (pushed.mergeSort fun a b => decide (millis a.ts ≤ millis b.ts)) ↔
      pushed.Perm (messagesOf executionId records) := by
  have samePushed := List.mergeSort_perm pushed fun a b => decide (millis a.ts ≤ millis b.ts)
  constructor
  · intro exactly
    exact samePushed.symm.trans exactly.perm
  · intro perm
    refine ⟨samePushed.trans perm, ?_⟩
    have ordered : (pushed.mergeSort fun a b => decide (millis a.ts ≤ millis b.ts)).Pairwise
        fun a b => decide (millis a.ts ≤ millis b.ts) = true :=
      List.pairwise_mergeSort (fun _ _ _ first second => by simp only [decide_eq_true_eq] at *; omega)
        (fun _ _ => by simp only [Bool.or_eq_true, decide_eq_true_eq]; omega) pushed
    simpa only [decide_eq_true_eq] using ordered

/-- The segments that are kept are those that the loop reads and the oldest one. -/
theorem messagesOf_retained_perm {options : MessageEventBusLogWriterOptions} (log : EventLog) (k : Nat)
    (keepFiles : options.keepFiles = k + 1) :
    (messagesOf executionId (log.retained options (k + 1) 0)).Perm
      ((log.segments.take (k + 1)).flatMap (messagesOf executionId) ++
        messagesOf executionId (log.segments[k + 1]?.getD [])) := by
  have oldest : log.segments[k + 1]?.toList.flatMap (messagesOf executionId) =
      messagesOf executionId (log.segments[k + 1]?.getD []) := by
    cases log.segments[k + 1]? with
    | none => rfl
    | some records => simp
  rw [EventLog.retained, logCount, if_pos rfl, keepFiles, Nat.min_self, messagesOf_flatten, ← oldest,
    ← List.flatMap_append, ← List.take_add_one]
  exact (List.reverse_perm _).flatMap_right _

/-- For every number of kept files from one on and after any commands, the messages of an execution are
    exactly those in the kept files if and only if the oldest of these files has none of them and every
    one in the other files is of a class that is rebuilt and on one line for the reader. -/
theorem getMessagesByExecutionId_exact_iff (defaults : Defaults) (millis : String → Int) (executionId : String)
    (commands : List LogCommand) (k maxFileSizeInKB : Nat) :
    let options : MessageEventBusLogWriterOptions := ⟨k + 1, maxFileSizeInKB⟩
    let log := EventLog.run options commands
    IsExactly millis executionId (log.retained options (k + 1) 0)
        (getMessagesByExecutionId defaults millis (LogWorker.run options commands).files executionId (k + 1) 0) ↔
      messagesOf executionId (log.segments[k + 1]?.getD []) = [] ∧
        ∀ segment ∈ log.segments.take (k + 1), ∀ msg ∈ messagesOf executionId segment, msg.readable = true := by
  intro options log
  have keepFiles : options.keepFiles = k + 1 := rfl
  have pushed := (EventLog.holds_run options commands).pushed_eq defaults executionId (k + 1)
  rw [keepFiles, Nat.min_eq_left (by omega)] at pushed
  rw [getMessagesByExecutionId, isExactly_mergeSort_iff, logCount, if_pos rfl, pushed,
    (messagesOf_retained_perm log k keepFiles).congr_right, filter_perm_append_iff, List.forall_mem_flatMap]

/-! ### A file that is kept and not read -/

namespace Throttled

/-- The start of the execution is in the older of two files when only one is kept beside the newest. -/
theorem getMessagesByExecutionId_not_exact :
    let options : MessageEventBusLogWriterOptions := ⟨1, 10240⟩
    let commands := [LogCommand.startLogging, .appendMessageToLog started, .startLogging]
    let millis : String → Int := fun _ => 1735689600000
    ¬ IsExactly millis "7" ((EventLog.run options commands).retained options 1 0)
        (getMessagesByExecutionId ⟨"3", started.ts⟩ millis (LogWorker.run options commands).files "7" 1 0) := by
  intro options commands millis exactly
  have lengths := exactly.perm.length_eq
  have pushed := (EventLog.holds_run options commands).pushed_eq ⟨"3", started.ts⟩ "7" 1
  rw [getMessagesByExecutionId, (List.mergeSort_perm _ _).length_eq, logCount, if_pos rfl, pushed] at lengths
  exact absurd lengths (by decide)

end Throttled

end N8n.Eventbus
