import Mathlib.Logic.Function.Basic
import N8n.Eventbus.EventMessageClasses
import N8n.Library.JsonLines
import N8n.Library.OrderedMap

/-! # The log of the event bus

`packages/cli/src/eventbus/message-event-bus-writer`: the worker that appends
messages and confirmations to the newest of the log files and renames the files,
and `getMessages`, which reads the files again.
-/

namespace N8n.Eventbus

open Json

/-! ## Log files -/

/-- The contents of the log files by their counter; the newest file has none in its name. -/
abbrev LogFiles := Nat → Option (List Char)

namespace LogFiles

def rmSync (files : LogFiles) (counter : Nat) : LogFiles := Function.update files counter none

def renameSync (files : LogFiles) (counter target : Nat) : LogFiles :=
  Function.update (Function.update files target (files counter)) counter none

def appendFileSync (files : LogFiles) (counter : Nat) (text : List Char) : LogFiles :=
  Function.update files counter (some ((files counter).getD [] ++ text))

/-- The body of the loop that renames. -/
def renameIfExists (files : LogFiles) (counter : Nat) : LogFiles :=
  if (files counter).isSome then files.renameSync counter (counter + 1) else files

/-- The loop, from the last of the counters below the count down to zero. -/
def renameBelow (files : LogFiles) : Nat → LogFiles
  | 0 => files
  | count + 1 => renameBelow (files.renameIfExists count) count

/-- Opening the new file to append creates it. -/
def renameAndCreateLogs (keepFiles : Nat) (files : LogFiles) : LogFiles :=
  let files := if (files keepFiles).isSome then files.rmSync keepFiles else files
  (files.renameBelow keepFiles).appendFileSync 0 []

theorem renameIfExists_apply {files : LogFiles} {counter : Nat} (free : files (counter + 1) = none) (other : Nat) :
    files.renameIfExists counter other =
      if other = counter then none else if other = counter + 1 then files counter else files other := by
  unfold renameIfExists
  split
  next => simp only [renameSync, Function.update_apply]
  next missing =>
    have isNone : files counter = none := by simpa using missing
    split
    next same => rw [same, isNone]
    next =>
      split
      next same => rw [same, free, isNone]
      next => rfl

theorem renameBelow_apply {files : LogFiles} {count : Nat} (free : files count = none) :
    files.renameBelow count 0 = none ∧
      ∀ counter, files.renameBelow count (counter + 1) =
        if counter < count then files counter else files (counter + 1) := by
  induction count generalizing files with
  | zero => exact ⟨free, fun _ => rfl⟩
  | succ count ih =>
    have moved := renameIfExists_apply free
    have freed : files.renameIfExists count count = none := by simp [moved]
    obtain ⟨first, others⟩ := ih freed
    refine ⟨first, fun counter => ?_⟩
    rw [renameBelow, others, moved, moved]
    grind

theorem renameAndCreateLogs_zero (keepFiles : Nat) (files : LogFiles) :
    renameAndCreateLogs keepFiles files 0 = some [] := by
  unfold renameAndCreateLogs
  split
  next =>
    have free : files.rmSync keepFiles keepFiles = none := by simp [rmSync]
    simp [appendFileSync, (renameBelow_apply free).1]
  next missing =>
    have free : files keepFiles = none := by simpa using missing
    simp [appendFileSync, (renameBelow_apply free).1]

theorem renameAndCreateLogs_succ (keepFiles : Nat) (files : LogFiles) (counter : Nat) :
    renameAndCreateLogs keepFiles files (counter + 1) =
      if counter < keepFiles then files counter else files (counter + 1) := by
  unfold renameAndCreateLogs
  split
  next =>
    have free : files.rmSync keepFiles keepFiles = none := by simp [rmSync]
    rw [appendFileSync, Function.update_of_ne (Nat.succ_ne_zero counter), (renameBelow_apply free).2]
    simp only [rmSync, Function.update_apply]
    grind
  next missing =>
    have free : files keepFiles = none := by simpa using missing
    rw [appendFileSync, Function.update_of_ne (Nat.succ_ne_zero counter), (renameBelow_apply free).2]

end LogFiles

/-! ## The worker -/

structure MessageEventBusLogWriterOptions where
  keepNumberOfFiles : Nat
  maxFileSizeInKB : Nat

/-- `setKeepFiles` -/
def MessageEventBusLogWriterOptions.keepFiles (options : MessageEventBusLogWriterOptions) : Nat :=
  if options.keepNumberOfFiles < 1 then 1 else options.keepNumberOfFiles

structure LogWorker where
  files : LogFiles
  loggingPaused : Bool

/-- What the worker is told, and the timer that `startLogging` starts. -/
inductive LogCommand
  /-- A new worker, with the same options. -/
  | spawnThread
  | startLogging
  | appendMessageToLog (msg : EventMessageTypes)
  | confirmMessageSent (msg : EventMessageConfirm)
  | checkFileSize

namespace LogWorker

/-- There are no files yet. -/
def initial : LogWorker := ⟨fun _ => none, true⟩

def appendMessageSync (msg : Value) (worker : LogWorker) : LogWorker :=
  if worker.loggingPaused then worker
  else { worker with files := worker.files.appendFileSync 0 (stringify msg ++ ['\n']) }

def fileSize (text : List Char) : Nat := (text.map Char.utf8Size).sum

/-- `stat` rejects when there is no file. -/
def checkFileSize (options : MessageEventBusLogWriterOptions) (worker : LogWorker) : LogWorker :=
  match worker.files 0 with
  | none => worker
  | some text =>
    if options.maxFileSizeInKB * 1024 < fileSize text then
      { worker with files := worker.files.renameAndCreateLogs options.keepFiles }
    else worker

def handle (options : MessageEventBusLogWriterOptions) (worker : LogWorker) : LogCommand → LogWorker
  | .spawnThread => { worker with loggingPaused := true }
  | .startLogging => ⟨worker.files.renameAndCreateLogs options.keepFiles, false⟩
  | .appendMessageToLog msg => worker.appendMessageSync msg.serialize
  | .confirmMessageSent msg => worker.appendMessageSync msg.serialize
  | .checkFileSize => if worker.loggingPaused then worker else worker.checkFileSize options

def run (options : MessageEventBusLogWriterOptions) (commands : List LogCommand) : LogWorker :=
  commands.foldl (handle options) initial

end LogWorker

/-! ## Reading -/

inductive EventMessageReturnMode
  | sent
  | unsent
  | all
  | unfinished
deriving DecidableEq

structure ReadMessagesFromLogFileResult where
  loggedMessages : List EventMessage := []
  sentMessages : List EventMessage := []
  unfinishedExecutions : OrderedMap String (List EventMessage) := ∅

/-- The classes that `getEventMessageObjectByType` has a case for. -/
def rebuiltTypes : List EventMessageTypeNames := [.generic, .workflow, .audit, .node]

def getEventMessageObjectByType (defaults : Defaults) (message : Value) : Option EventMessage :=
  match message.field? "__type" with
  | some (.string type) =>
    (rebuiltTypes.find? fun __type => __type.text == type).map fun __type =>
      setOptionsOrDefault defaults __type message
  | _ => none

/-- `msg.payload?.executionId` where it is truthy, as a property key. -/
def EventMessage.executionId? (msg : EventMessage) : Option String :=
  match msg.payload.bind (Value.lastField? "executionId") with
  | none => none
  | some executionId => if executionId.truthy then some executionId.toText else none

def withExecution (unfinished : OrderedMap String (List EventMessage)) (executionId : String) :
    OrderedMap String (List EventMessage) :=
  if unfinished.keys.contains executionId then unfinished else unfinished.set executionId []

def pushMessage (unfinished : OrderedMap String (List EventMessage)) (executionId : String) (msg : EventMessage) :
    OrderedMap String (List EventMessage) :=
  unfinished.set executionId ((unfinished.get? executionId).getD [] ++ [msg])

def trackExecution (unfinished : OrderedMap String (List EventMessage)) (executionId : String) (msg : EventMessage) :
    OrderedMap String (List EventMessage) :=
  match msg.eventName with
  | "n8n.workflow.started" => (withExecution unfinished executionId).set executionId [msg]
  | "n8n.workflow.success" | "n8n.workflow.failed" | "n8n.execution.throttled"
  | "n8n.execution.started-during-bootup" => unfinished.erase executionId
  | "n8n.node.started" | "n8n.node.finished" =>
    pushMessage (withExecution unfinished executionId) executionId msg
  | _ => unfinished

namespace ReadMessagesFromLogFileResult

def readMessage (results : ReadMessagesFromLogFileResult) (msg : EventMessage) : ReadMessagesFromLogFileResult :=
  { results with
    loggedMessages := results.loggedMessages ++ [msg]
    unfinishedExecutions :=
      match msg.executionId? with
      | none => results.unfinishedExecutions
      | some executionId =>
        if msg.eventName = "" then results.unfinishedExecutions
        else trackExecution results.unfinishedExecutions executionId msg }

/-- `remove` takes the messages with the id out of the logged ones. -/
def readConfirm (mode : EventMessageReturnMode) (results : ReadMessagesFromLogFileResult) (confirm : Option String) :
    ReadMessagesFromLogFileResult :=
  if mode = .all then results
  else
    { results with
      loggedMessages := results.loggedMessages.filter fun msg => some msg.id != confirm
      sentMessages :=
        if mode = .sent then
          results.sentMessages ++ results.loggedMessages.filter fun msg => some msg.id == confirm
        else results.sentMessages }

/-- A line that is no JSON text, or that throws in the checks, is logged and skipped. -/
def readLine (defaults : Defaults) (mode : EventMessageReturnMode) (results : ReadMessagesFromLogFileResult)
    (line : List Char) : ReadMessagesFromLogFileResult :=
  match parse line with
  | none => results
  | some json =>
    match isEventMessageOptions json with
    | none => results
    | some isOptions =>
      let results :=
        if isOptions && (json.field? "__type").isSome then
          match getEventMessageObjectByType defaults json with
          | none => results
          | some msg => results.readMessage msg
        else results
      if isEventMessageConfirm json then results.readConfirm mode (string? (json.field? "confirm")) else results

def readLoggedMessagesFromFile (defaults : Defaults) (mode : EventMessageReturnMode)
    (results : ReadMessagesFromLogFileResult) : Option (List Char) → ReadMessagesFromLogFileResult
  | none => results
  | some text => (lines text).foldl (readLine defaults mode) results

end ReadMessagesFromLogFileResult

/-- The number of files that are read besides the newest. -/
def logCount (keepLogCount logHistory : Nat) : Nat :=
  if logHistory = 0 then keepLogCount else min keepLogCount logHistory

def getMessages (defaults : Defaults) (files : LogFiles) (keepLogCount : Nat) (mode : EventMessageReturnMode)
    (logHistory : Nat) : ReadMessagesFromLogFileResult :=
  (List.range (logCount keepLogCount logHistory + 1)).reverse.foldl
    (fun results counter => results.readLoggedMessagesFromFile defaults mode (files counter)) {}

end N8n.Eventbus
