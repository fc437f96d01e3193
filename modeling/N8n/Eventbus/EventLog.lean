import N8n.Eventbus.MessageEventBusLogWriter

/-! # The event log as records

The log as the records that were appended, in segments that rotations begin.  The
files of the worker hold the last segments, and reading their lines is reading
the records, apart from those whose line is cut and the messages of classes that
are not rebuilt.
-/

namespace N8n.Eventbus

open Json

/-! ## Records and their lines -/

inductive LogRecord
  | message (msg : EventMessageTypes)
  | confirm (msg : EventMessageConfirm)

namespace LogRecord

def serialize : LogRecord → Value
  | message msg => msg.serialize
  | confirm msg => msg.serialize

def fileText (records : List LogRecord) : List Char := Json.fileText (records.map serialize)

def confirms (id : String) : LogRecord → Bool
  | message _ => false
  | confirm msg => msg.confirm == id

/-- The record is a confirmation of the message, on one line for the reader. -/
def confirmsUncut (id : String) (record : LogRecord) : Bool := record.confirms id && !isCut record.serialize

theorem fileText_append (records : List LogRecord) (record : LogRecord) :
    fileText (records ++ [record]) = fileText records ++ (stringify record.serialize ++ ['\n']) := by
  simp [fileText, Json.fileText]

end LogRecord

/-- The message is of a class that is rebuilt, and its line is one line for the reader. -/
def EventMessage.readable (msg : EventMessage) : Bool :=
  rebuiltTypes.contains msg.__type && !isCut msg.serialize

namespace ReadMessagesFromLogFileResult

def readRecord (mode : EventMessageReturnMode) (results : ReadMessagesFromLogFileResult) :
    LogRecord → ReadMessagesFromLogFileResult
  | .message msg => if msg.readable then results.readMessage msg.toEventMessage else results
  | .confirm msg => if isCut msg.serialize then results else results.readConfirm mode (some msg.confirm)

variable (defaults : Defaults)

theorem getEventMessageObjectByType_serialize (msg : EventMessage) :
    getEventMessageObjectByType defaults msg.serialize =
      if rebuiltTypes.contains msg.__type then some msg else none := by
  have type : msg.serialize.field? "__type" = some (.string msg.__type.text) := by
    cases isPayload : msg.payload <;>
      simp [EventMessage.serialize, isPayload, Value.field?, Value.lastField?]
  have found : rebuiltTypes.find? (fun __type => __type.text == msg.__type.text) =
      if rebuiltTypes.contains msg.__type then some msg.__type else none := by
    cases msg.__type <;> decide
  rw [getEventMessageObjectByType, type]
  simp only [found]
  split
  · simp [setOptionsOrDefault_serialize]
  · rfl

variable (mode : EventMessageReturnMode)

theorem readLine_of_nameless
    (results : ReadMessagesFromLogFileResult) {line : List Char} (nameless : Nameless line) :
    results.readLine defaults mode line = results := by
  rw [readLine]
  cases parses : parse line with
  | none => rfl
  | some json =>
    have noEventName : json.field? "eventName" = none :=
      Value.field?_eq_none fun member => absurd (List.all_eq_true.mpr (nameless json parses _ member)) (by decide)
    have noConfirm : json.field? "confirm" = none :=
      Value.field?_eq_none fun member => absurd (List.all_eq_true.mpr (nameless json parses _ member)) (by decide)
    have noOptions : isEventMessageOptions json = some false := by simp [isEventMessageOptions, noEventName]
    have isNoConfirm : isEventMessageConfirm json = false := by simp [isEventMessageConfirm, noConfirm]
    simp [noOptions, isNoConfirm]

theorem foldl_readLine_of_nameless
    (results : ReadMessagesFromLogFileResult) {lines : List (List Char)} (nameless : ∀ line ∈ lines, Nameless line) :
    lines.foldl (readLine defaults mode) results = results := by
  induction lines with
  | nil => rfl
  | cons line lines ih =>
    rw [List.foldl_cons, readLine_of_nameless defaults mode results (nameless line List.mem_cons_self)]
    exact ih fun other member => nameless other (List.mem_cons_of_mem _ member)

theorem readLine_message
    (results : ReadMessagesFromLogFileResult) (msg : EventMessageTypes) :
    results.readLine defaults mode (stringify msg.serialize) =
      if rebuiltTypes.contains msg.__type then results.readMessage msg.toEventMessage else results := by
  have type : (msg.serialize.field? "__type").isSome := by
    cases isPayload : msg.payload <;>
      simp [EventMessage.serialize, isPayload, Value.field?, Value.lastField?]
  simp only [readLine, parse_stringify, isEventMessageOptions_serialize, type,
    isEventMessageConfirm_serialize_message, getEventMessageObjectByType_serialize]
  cases rebuiltTypes.contains msg.__type <;> simp

theorem readLine_confirm
    (results : ReadMessagesFromLogFileResult) (msg : EventMessageConfirm) :
    results.readLine defaults mode (stringify msg.serialize) = results.readConfirm mode (some msg.confirm) := by
  simp [readLine, parse_stringify, isEventMessageOptions_serialize_confirm, isEventMessageConfirm_serialize,
    field?_confirm_serialize, string?]

theorem foldl_readLine_pieces
    (results : ReadMessagesFromLogFileResult) (record : LogRecord) :
    (pieces record.serialize).foldl (readLine defaults mode) results = results.readRecord mode record := by
  cases cut : isCut record.serialize with
  | true =>
    rw [foldl_readLine_of_nameless defaults mode results fun _ => nameless_of_isCut cut]
    cases record with
    | message msg =>
      have unreadable : msg.readable = false := by
        rw [EventMessage.readable, show isCut msg.serialize = true from cut]
        simp
      simp [readRecord, unreadable]
    | confirm msg =>
      have isCutLine : isCut msg.serialize = true := cut
      rw [readRecord, if_pos isCutLine]
  | false =>
    rw [pieces_of_not_isCut cut, List.foldl_cons, List.foldl_nil]
    cases record with
    | message msg =>
      have readable : msg.readable = rebuiltTypes.contains msg.__type := by
        rw [EventMessage.readable, show isCut msg.serialize = false from cut]
        simp
      rw [readRecord, readable]
      exact readLine_message defaults mode results msg
    | confirm msg =>
      rw [readRecord, show isCut msg.serialize = false from cut]
      exact readLine_confirm defaults mode results msg

theorem readLoggedMessagesFromFile_fileText
    (results : ReadMessagesFromLogFileResult) (records : List LogRecord) :
    results.readLoggedMessagesFromFile defaults mode (some (LogRecord.fileText records)) =
      records.foldl (readRecord mode) results := by
  rw [readLoggedMessagesFromFile, LogRecord.fileText, lines_fileText]
  induction records generalizing results with
  | nil => rfl
  | cons record records ih =>
    rw [List.map_cons, List.flatMap_cons, List.foldl_append, foldl_readLine_pieces, ih,
      List.foldl_cons]

end ReadMessagesFromLogFileResult

/-! ## Segments -/

/-- The records that were appended, the newest segment first. -/
structure EventLog where
  segments : List (List LogRecord)
  paused : Bool

namespace EventLog

def initial : EventLog := ⟨[], true⟩

/-- The newest segment with the record; nothing is appended while logging is paused. -/
def append (record : LogRecord) (log : EventLog) : EventLog :=
  if log.paused then log
  else { log with segments := (log.segments.headD [] ++ [record]) :: log.segments.tail }

def isFull (options : MessageEventBusLogWriterOptions) (log : EventLog) : Bool :=
  log.segments.head?.any fun newest =>
    options.maxFileSizeInKB * 1024 < LogWorker.fileSize (LogRecord.fileText newest)

def checkFileSize (options : MessageEventBusLogWriterOptions) (log : EventLog) : EventLog :=
  if log.isFull options then { log with segments := [] :: log.segments } else log

def step (options : MessageEventBusLogWriterOptions) (log : EventLog) : LogCommand → EventLog
  | .spawnThread => { log with paused := true }
  | .startLogging => ⟨[] :: log.segments, false⟩
  | .appendMessageToLog msg => log.append (.message msg)
  | .confirmMessageSent msg => log.append (.confirm msg)
  | .checkFileSize => if log.paused then log else log.checkFileSize options

def run (options : MessageEventBusLogWriterOptions) (commands : List LogCommand) : EventLog :=
  commands.foldl (step options) initial

/-- The records of the files that are kept and read, in the order they were appended in. -/
def retained (options : MessageEventBusLogWriterOptions) (keepLogCount logHistory : Nat) (log : EventLog) :
    List LogRecord :=
  (log.segments.take (min (logCount keepLogCount logHistory) options.keepFiles + 1)).reverse.flatten

structure Holds (options : MessageEventBusLogWriterOptions) (worker : LogWorker) (log : EventLog) : Prop where
  paused : worker.loggingPaused = log.paused
  files : ∀ counter, worker.files counter =
    if counter ≤ options.keepFiles then log.segments[counter]?.map LogRecord.fileText else none

theorem holds_initial (options : MessageEventBusLogWriterOptions) : Holds options LogWorker.initial initial where
  paused := rfl
  files := by simp [LogWorker.initial, initial]

variable {options : MessageEventBusLogWriterOptions} {worker : LogWorker} {log : EventLog}

theorem files_renameAndCreateLogs (holds : Holds options worker log) (counter : Nat) :
    worker.files.renameAndCreateLogs options.keepFiles counter =
      if counter ≤ options.keepFiles then ([] :: log.segments)[counter]?.map LogRecord.fileText else none := by
  cases counter with
  | zero => simp [LogFiles.renameAndCreateLogs_zero, LogRecord.fileText, Json.fileText]
  | succ counter =>
    rw [LogFiles.renameAndCreateLogs_succ, holds.files, holds.files, List.getElem?_cons_succ]
    grind

theorem Holds.append (holds : Holds options worker log) (record : LogRecord) :
    Holds options (worker.appendMessageSync record.serialize) (log.append record) := by
  rw [LogWorker.appendMessageSync, EventLog.append, holds.paused]
  cases isPaused : log.paused with
  | true => simpa using holds
  | false =>
    refine ⟨rfl, fun counter => ?_⟩
    have newest := holds.files 0
    cases counter with
    | zero =>
      cases segments : log.segments <;>
        simp_all [LogFiles.appendFileSync, LogRecord.fileText_append]
      simp [LogRecord.fileText, Json.fileText]
    | succ counter =>
      have older := holds.files (counter + 1)
      cases segments : log.segments <;> simp_all [LogFiles.appendFileSync]

theorem Holds.checkFileSize (holds : Holds options worker log) :
    Holds options (worker.checkFileSize options) (log.checkFileSize options) := by
  have newest := holds.files 0
  rw [LogWorker.checkFileSize, newest, EventLog.checkFileSize, isFull]
  cases segments : log.segments with
  | nil => simpa using holds
  | cons records older =>
    by_cases full : options.maxFileSizeInKB * 1024 < LogWorker.fileSize (LogRecord.fileText records)
    · have files := files_renameAndCreateLogs holds
      rw [segments] at files
      simpa [full] using (⟨holds.paused, files⟩ : Holds options
        ⟨worker.files.renameAndCreateLogs options.keepFiles, worker.loggingPaused⟩ ⟨[] :: records :: older, log.paused⟩)
    · simpa [full] using holds

theorem Holds.step {options : MessageEventBusLogWriterOptions} {worker : LogWorker} {log : EventLog}
    (holds : Holds options worker log) (command : LogCommand) :
    Holds options (worker.handle options command) (log.step options command) := by
  cases command with
  | spawnThread => exact ⟨rfl, holds.files⟩
  | startLogging => exact ⟨rfl, files_renameAndCreateLogs holds⟩
  | appendMessageToLog msg => exact holds.append (.message msg)
  | confirmMessageSent msg => exact holds.append (.confirm msg)
  | checkFileSize =>
    rw [LogWorker.handle, EventLog.step, holds.paused]
    split
    · exact holds
    · exact holds.checkFileSize

theorem Holds.foldl (holds : Holds options worker log) (commands : List LogCommand) :
    Holds options (commands.foldl (LogWorker.handle options) worker) (commands.foldl (EventLog.step options) log) := by
  induction commands generalizing worker log with
  | nil => exact holds
  | cons command commands ih => exact ih (holds.step command)

theorem holds_run (options : MessageEventBusLogWriterOptions) (commands : List LogCommand) :
    Holds options (LogWorker.run options commands) (run options commands) :=
  (holds_initial options).foldl commands

/-- Reading the files is reading the records that are kept in them, the oldest first. -/
theorem Holds.getMessages_eq (holds : Holds options worker log) (defaults : Defaults) (keepLogCount : Nat)
    (mode : EventMessageReturnMode) (logHistory : Nat) :
    getMessages defaults worker.files keepLogCount mode logHistory =
      (log.retained options keepLogCount logHistory).foldl (ReadMessagesFromLogFileResult.readRecord mode) {} := by
  have readFile : ∀ (results : ReadMessagesFromLogFileResult) (counter : Nat),
      results.readLoggedMessagesFromFile defaults mode (worker.files counter) =
        (if counter ≤ options.keepFiles then log.segments[counter]?.getD [] else []).foldl
          (ReadMessagesFromLogFileResult.readRecord mode) results := by
    intro results counter
    rw [holds.files]
    split
    · cases log.segments[counter]? with
      | none => rfl
      | some records => exact ReadMessagesFromLogFileResult.readLoggedMessagesFromFile_fileText ..
    · rfl
  rw [getMessages, retained]
  generalize ({} : ReadMessagesFromLogFileResult) = results
  induction logCount keepLogCount logHistory generalizing results with
  | zero =>
    have range : (List.range (0 + 1)).reverse = [0] := rfl
    rw [range, List.foldl_cons, List.foldl_nil, readFile, if_pos (Nat.zero_le _)]
    cases log.segments <;> simp
  | succ count ih =>
    have range : (List.range (count + 1 + 1)).reverse = (count + 1) :: (List.range (count + 1)).reverse := by
      rw [List.range_succ, List.reverse_append]
      rfl
    rw [range, List.foldl_cons, readFile, ih]
    by_cases kept : count + 1 ≤ options.keepFiles
    · have segment : log.segments[count + 1]?.toList.reverse.flatten = log.segments[count + 1]?.getD [] := by
        cases log.segments[count + 1]? <;> simp
      rw [if_pos kept, Nat.min_eq_left (by omega), Nat.min_eq_left kept, List.take_add_one (i := count + 1),
        List.reverse_append, List.flatten_append, List.foldl_append, segment]
    · rw [if_neg kept, Nat.min_eq_right (by omega), Nat.min_eq_right (by omega)]
      rfl

end EventLog

end N8n.Eventbus
