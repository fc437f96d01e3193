import Mathlib.Order.BooleanAlgebra.Set
import Mathlib.Logic.Equiv.Basic
import N8n.Library.Runs
import N8n.Workflow.Interfaces

/-! # Undo and redo

`packages/editor-ui/src/stores/history.store.ts`, the commands in
`packages/editor-ui/src/models/history.ts`, and `undo` and `redo` in
`packages/editor-ui/src/composables/useHistoryHelper.ts`.  A command describes
one change of the canvas; reverting it is the change that its reverse describes.
An undo or redo is one step here.
-/

namespace N8n.Editor

abbrev XYPosition := Int × Int

/-- A node as far as the canvas state has it. -/
structure HistoryNode where
  name : String
  position : XYPosition
  disabled : Bool
deriving DecidableEq, Repr

inductive Command where
  | moveNode (nodeName : String) (oldPosition newPosition : XYPosition)
  | addNode (node : HistoryNode)
  | removeNode (node : HistoryNode)
  | addConnection (connectionData : N8n.IConnection × N8n.IConnection)
  | removeConnection (connectionData : N8n.IConnection × N8n.IConnection)
  | enableNodeToggle (nodeName : String) (oldState newState : Bool)
  | renameNode (currentName newName : String)
deriving DecidableEq, Repr

namespace Command

def getReverseCommand : Command → Command
  | moveNode nodeName oldPosition newPosition => moveNode nodeName newPosition oldPosition
  | addNode node => removeNode node
  | removeNode node => addNode node
  | addConnection connectionData => removeConnection connectionData
  | removeConnection connectionData => addConnection connectionData
  | enableNodeToggle nodeName oldState newState => enableNodeToggle nodeName newState oldState
  | renameNode currentName newName => renameNode newName currentName

def sameEnds (first second : N8n.IConnection × N8n.IConnection) : Bool :=
  second.1.node = first.1.node && second.2.node = first.2.node && second.1.index = first.1.index &&
    second.2.index = first.2.index

/-- `this.isEqualTo(anotherCommand)` -/
def isEqualTo : Command → Command → Bool
  | moveNode nodeName oldPosition newPosition, moveNode nodeName' oldPosition' newPosition' =>
    nodeName' = nodeName && oldPosition' = oldPosition && newPosition' = newPosition
  | addNode node, addNode node' => node'.name = node.name
  -- a removal is compared with additions
  | removeNode node, addNode node' => node'.name = node.name
  | addConnection connectionData, addConnection connectionData' => sameEnds connectionData connectionData'
  | removeConnection connectionData, removeConnection connectionData' => sameEnds connectionData connectionData'
  | enableNodeToggle nodeName _ _, enableNodeToggle nodeName' _ _ => nodeName' = nodeName
  | renameNode currentName newName, renameNode currentName' newName' =>
    currentName' = currentName && newName' = newName
  | _, _ => false

end Command

/-! ## The canvas -/

structure CanvasNode where
  position : XYPosition
  disabled : Bool
deriving DecidableEq, Repr

structure Canvas where
  nodes : String → Option CanvasNode
  connections : Set (N8n.IConnection × N8n.IConnection)

def renameConnection (first second : String) (connection : N8n.IConnection × N8n.IConnection) :
    N8n.IConnection × N8n.IConnection :=
  ({ connection.1 with node := Equiv.swap first second connection.1.node },
    { connection.2 with node := Equiv.swap first second connection.2.node })

namespace Canvas

def setNode (canvas : Canvas) (name : String) (node : Option CanvasNode) : Canvas :=
  { canvas with nodes := Function.update canvas.nodes name node }

def apply (canvas : Canvas) : Command → Canvas
  | .moveNode nodeName _ newPosition =>
    canvas.setNode nodeName ((canvas.nodes nodeName).map fun node => { node with position := newPosition })
  | .addNode node => canvas.setNode node.name (some { position := node.position, disabled := node.disabled })
  | .removeNode node => canvas.setNode node.name none
  | .addConnection connectionData => { canvas with connections := insert connectionData canvas.connections }
  | .removeConnection connectionData => { canvas with connections := canvas.connections \ {connectionData} }
  | .enableNodeToggle nodeName _ newState =>
    canvas.setNode nodeName ((canvas.nodes nodeName).map fun node => { node with disabled := newState })
  | .renameNode currentName newName =>
    { nodes := fun name => canvas.nodes (Equiv.swap currentName newName name)
      connections := Set.preimage (renameConnection currentName newName) canvas.connections }

/-- The canvas is as the command describes it before the change. -/
def Fits (canvas : Canvas) : Command → Prop
  | .moveNode nodeName oldPosition _ => ∃ node, canvas.nodes nodeName = some node ∧ node.position = oldPosition
  | .addNode node => canvas.nodes node.name = none
  | .removeNode node => canvas.nodes node.name = some ⟨node.position, node.disabled⟩
  | .addConnection connectionData => connectionData ∉ canvas.connections
  | .removeConnection connectionData => connectionData ∈ canvas.connections
  | .enableNodeToggle nodeName oldState _ => ∃ node, canvas.nodes nodeName = some node ∧ node.disabled = oldState
  | .renameNode currentName newName => canvas.nodes currentName ≠ none ∧ canvas.nodes newName = none ∧
      ∀ connection ∈ canvas.connections, connection.1.node ≠ newName ∧ connection.2.node ≠ newName

def Describes (command : Command) (before after : Canvas) : Prop := before.Fits command ∧ after = before.apply command

def revert (canvas : Canvas) (command : Command) : Canvas := canvas.apply command.getReverseCommand

theorem renameConnection_back (first second : String) (connection : N8n.IConnection × N8n.IConnection) :
    renameConnection first second (renameConnection second first connection) = connection := by
  simp [renameConnection, Equiv.swap_comm second first]

theorem setNode_back {canvas : Canvas} {name : String} {before : Option CanvasNode}
    (isNode : canvas.nodes name = before) (node : Option CanvasNode) :
    (canvas.setNode name node).setNode name before = canvas := by
  subst isNode
  simp [setNode]

theorem Describes.reverse {command : Command} {before after : Canvas} (described : Describes command before after) :
    Describes command.getReverseCommand after before := by
  obtain ⟨fits, rfl⟩ := described
  cases command with
  | moveNode nodeName oldPosition newPosition =>
    obtain ⟨node, found, rfl⟩ := fits
    refine ⟨⟨{ node with position := newPosition }, by simp [apply, setNode, found], rfl⟩, ?_⟩
    simp only [apply, Command.getReverseCommand, found, setNode, Function.update_self, Option.map_some]
    exact (setNode_back found _).symm
  | addNode node =>
    refine ⟨by simp [Fits, apply, setNode, Command.getReverseCommand], ?_⟩
    exact (setNode_back fits _).symm
  | removeNode node =>
    refine ⟨by simp [Fits, apply, setNode, Command.getReverseCommand], ?_⟩
    exact (setNode_back fits _).symm
  | addConnection connectionData =>
    have absent : connectionData ∉ before.connections := fits
    refine ⟨Set.mem_insert _ _, ?_⟩
    simp only [apply, Command.getReverseCommand, Set.insert_sdiff_self_of_notMem absent]
  | removeConnection connectionData =>
    have present : connectionData ∈ before.connections := fits
    refine ⟨by simp [Fits, apply, Command.getReverseCommand], ?_⟩
    simp only [apply, Command.getReverseCommand, Set.insert_sdiff_singleton, Set.insert_eq_of_mem present]
  | enableNodeToggle nodeName oldState newState =>
    obtain ⟨node, found, rfl⟩ := fits
    refine ⟨⟨{ node with disabled := newState }, by simp [apply, setNode, found], rfl⟩, ?_⟩
    simp only [apply, Command.getReverseCommand, found, setNode, Function.update_self, Option.map_some]
    exact (setNode_back found _).symm
  | renameNode currentName newName =>
    obtain ⟨isNode, isFree, unconnected⟩ := fits
    refine ⟨⟨?_, ?_, ?_⟩, ?_⟩
    · simpa [apply] using isNode
    · simpa [apply] using isFree
    · intro connection member
      have free := unconnected _ member
      simpa only [renameConnection, ne_eq, Equiv.swap_apply_eq_iff, Equiv.swap_apply_right] using free
    · simp only [apply, Command.getReverseCommand]
      cases before
      congr 1
      · funext name
        simp [Equiv.swap_comm newName currentName]
      · ext connection
        simp [Set.mem_preimage, renameConnection_back]

theorem Describes.revert {command : Command} {before after : Canvas} (described : Describes command before after) :
    after.revert command = before := described.reverse.2.symm

end Canvas

/-! ## The store -/

inductive Undoable where
  | command (command : Command)
  | bulk (commands : List Command)
deriving DecidableEq, Repr

structure HistoryState where
  undoStack : List Undoable := []
  redoStack : List Undoable := []
  currentBulkAction : Option (List Command) := none
  bulkInProgress : Bool := false
deriving DecidableEq, Repr

def stackLimit : Nat := 100

/-- The oldest entry is dropped from a stack that has become too high. -/
def checkStackLimit (stack : List Undoable) : List Undoable :=
  if stack.length > stackLimit then stack.dropLast else stack

namespace HistoryState

def pushCommandToUndo (history : HistoryState) (undoable : Command) (clearRedo : Bool) : HistoryState :=
  if history.bulkInProgress then
    history
  else
    let pushed := match history.currentBulkAction with
      | some commands =>
        if commands.any (·.isEqualTo undoable) then history
        else { history with currentBulkAction := some (commands ++ [undoable]) }
      | none => { history with undoStack := .command undoable :: history.undoStack }
    let checked := { pushed with undoStack := checkStackLimit pushed.undoStack }
    if clearRedo then { checked with redoStack := [] } else checked

def pushBulkCommandToUndo (history : HistoryState) (commands : List Command) (clearRedo : Bool) : HistoryState :=
  let checked := { history with undoStack := checkStackLimit (.bulk commands :: history.undoStack) }
  if clearRedo then { checked with redoStack := [] } else checked

def pushUndoableToRedo (history : HistoryState) (undoable : Undoable) : HistoryState :=
  { history with redoStack := checkStackLimit (undoable :: history.redoStack) }

def startRecordingUndo (history : HistoryState) : HistoryState := { history with currentBulkAction := some [] }

def stopRecordingUndo (history : HistoryState) : HistoryState :=
  match history.currentBulkAction with
  | none | some [] => { history with currentBulkAction := none }
  | some commands =>
    { history with
      undoStack := checkStackLimit (.bulk commands :: history.undoStack)
      currentBulkAction := none }

end HistoryState

def revertCommands (canvas : Canvas) (commands : List Command) : Canvas := commands.reverse.foldl Canvas.revert canvas

def reverseCommands (commands : List Command) : List Command := commands.reverse.map Command.getReverseCommand

structure EditedCanvas where
  canvas : Canvas
  history : HistoryState

inductive HistoryEvent where
  /-- A change of the canvas, which is recorded. -/
  | change (command : Command)
  | startRecordingUndo
  | stopRecordingUndo
  | undo
  | redo
deriving DecidableEq, Repr

namespace EditedCanvas

def undo (edited : EditedCanvas) : EditedCanvas :=
  match edited.history.undoStack with
  | [] => edited
  | .bulk commands :: rest =>
    let popped := { edited.history with undoStack := rest, bulkInProgress := true }
    { canvas := revertCommands edited.canvas commands
      history := { popped.pushUndoableToRedo (.bulk (reverseCommands commands)) with bulkInProgress := false } }
  | .command command :: rest =>
    let popped := { edited.history with undoStack := rest }
    { canvas := edited.canvas.revert command
      history := popped.pushUndoableToRedo (.command command.getReverseCommand) }

def redo (edited : EditedCanvas) : EditedCanvas :=
  match edited.history.redoStack with
  | [] => edited
  | .bulk commands :: rest =>
    let popped := { edited.history with redoStack := rest, bulkInProgress := true }
    { canvas := revertCommands edited.canvas commands
      history :=
        { popped.pushBulkCommandToUndo (reverseCommands commands) false with bulkInProgress := false } }
  | .command command :: rest =>
    let popped := { edited.history with redoStack := rest }
    { canvas := edited.canvas.revert command
      history := popped.pushCommandToUndo command.getReverseCommand false }

def step (edited : EditedCanvas) : HistoryEvent → EditedCanvas
  | .change command =>
    { canvas := edited.canvas.apply command, history := edited.history.pushCommandToUndo command true }
  | .startRecordingUndo => { edited with history := edited.history.startRecordingUndo }
  | .stopRecordingUndo => { edited with history := edited.history.stopRecordingUndo }
  | .undo => edited.undo
  | .redo => edited.redo

def new (canvas : Canvas) : EditedCanvas := { canvas, history := {} }

def recorded (edited : EditedCanvas) : List Command := edited.history.currentBulkAction.getD []

/-- Outside of a recording with changes, undos and as many redos leave the canvas as it is. -/
def UndoRedoExact (edited : EditedCanvas) : Prop :=
  edited.recorded = [] → ∀ times ≤ edited.history.undoStack.length,
    (redo^[times] (undo^[times] edited)).canvas = edited.canvas

def recording (commands : List Command) : List HistoryEvent :=
  .startRecordingUndo :: (commands.map .change ++ [.stopRecordingUndo])

/-- The undo of a recording leads back to the canvas before it, and the redo to the canvas after it. -/
def RecordingExact (edited : EditedCanvas) (commands : List Command) : Prop :=
  ((recording commands).foldl step edited).undo.canvas = edited.canvas ∧
    ((recording commands).foldl step edited).undo.redo.canvas = ((recording commands).foldl step edited).canvas

/-- A recorded change is equal to none of the recording, or it changes nothing. -/
def IsKept (edited : EditedCanvas) (command : Command) (changed : Canvas) : Prop :=
  (∀ earlier ∈ edited.recorded, earlier.isEqualTo command = false) ∨ changed = edited.canvas

def IsDescribed (edited : EditedCanvas) : HistoryEvent → Prop
  | .change command => edited.canvas.Fits command
  | _ => True

/-- Changes are as their commands describe them and are not taken for recorded ones, and while there are recorded
changes nothing is undone, no other recording starts and no bulk is redone. -/
def RecordsAll (edited : EditedCanvas) : HistoryEvent → Prop
  | .change command => edited.canvas.Fits command ∧ edited.IsKept command (edited.canvas.apply command)
  | .startRecordingUndo => edited.recorded = []
  | .stopRecordingUndo => True
  | .undo => edited.recorded = [] ∨ edited.history.undoStack = []
  | .redo => match edited.history.redoStack with
    | [] => True
    | .bulk _ :: _ => edited.recorded = []
    | .command command :: _ => edited.IsKept command.getReverseCommand (edited.canvas.revert command)

end EditedCanvas

/-! ## Sequences of changes -/

/-- The commands describe the changes from one canvas to another, one after the other. -/
def Steps : List Command → Canvas → Canvas → Prop
  | [], before, after => before = after
  | command :: rest, before, after => ∃ between, Canvas.Describes command before between ∧ Steps rest between after

variable {before after : Canvas}

theorem steps_append {first second : List Command} :
    Steps (first ++ second) before after ↔ ∃ between, Steps first before between ∧ Steps second between after := by
  induction first generalizing before with
  | nil => simp [Steps]
  | cons command rest ih =>
    simp only [List.cons_append, Steps, ih]
    constructor
    · rintro ⟨next, described, between, first, second⟩
      exact ⟨between, ⟨next, described, first⟩, second⟩
    · rintro ⟨between, ⟨next, described, first⟩, second⟩
      exact ⟨next, described, between, first, second⟩

theorem Steps.concat {commands : List Command} {command : Command} {before between after : Canvas}
    (steps : Steps commands before between) (described : Canvas.Describes command between after) :
    Steps (commands ++ [command]) before after :=
  steps_append.mpr ⟨between, steps, after, described, rfl⟩

/-- A change that is taken for an earlier one has changed nothing. -/
theorem Steps.record {commands : List Command} {command : Command} {before between after : Canvas}
    (steps : Steps commands before between) (described : Canvas.Describes command between after)
    (kept : (∀ earlier ∈ commands, earlier.isEqualTo command = false) ∨ after = between) :
    Steps (if commands.any (·.isEqualTo command) then commands else commands ++ [command]) before after := by
  split
  next alreadyIn =>
    obtain different | rfl := kept
    · obtain ⟨earlier, member, isEqual⟩ := List.any_eq_true.mp alreadyIn
      rw [different earlier member] at isEqual
      contradiction
    · exact steps
  next => exact steps.concat described

theorem Steps.revert {commands : List Command} (steps : Steps commands before after) :
    revertCommands after commands = before := by
  induction commands generalizing before with
  | nil => exact steps.symm
  | cons command rest ih =>
    obtain ⟨between, described, steps⟩ := steps
    rw [revertCommands, List.reverse_cons, List.foldl_append, ← revertCommands, ih steps]
    exact described.revert

theorem Steps.reverse {commands : List Command} (steps : Steps commands before after) :
    Steps (reverseCommands commands) after before := by
  induction commands generalizing before with
  | nil => exact Eq.symm steps
  | cons command rest ih =>
    obtain ⟨between, described, steps⟩ := steps
    rw [reverseCommands, List.reverse_cons, List.map_append, ← reverseCommands]
    exact (ih steps).concat described.reverse

namespace Undoable

def commands : Undoable → List Command
  | .command change => [change]
  | .bulk changes => changes

def reverse : Undoable → Undoable
  | .command change => .command change.getReverseCommand
  | .bulk changes => .bulk (reverseCommands changes)

theorem commands_reverse (undoable : Undoable) : undoable.reverse.commands = reverseCommands undoable.commands := by
  cases undoable <;> rfl

end Undoable

/-- Reverting the entries of a stack one by one reverts changes that were made in the opposite order. -/
def Reverts : Canvas → List Undoable → Prop
  | _, [] => True
  | canvas, undoable :: rest => ∃ before, Steps undoable.commands before canvas ∧ Reverts before rest

theorem Reverts.of_append {canvas : Canvas} {first second : List Undoable}
    (reverts : Reverts canvas (first ++ second)) : Reverts canvas first := by
  induction first generalizing canvas with
  | nil => trivial
  | cons undoable rest ih =>
    obtain ⟨before, steps, reverts⟩ := reverts
    exact ⟨before, steps, ih reverts⟩

variable {stack : List Undoable}

theorem checkStackLimit_eq (limited : stack.length ≤ stackLimit + 1) :
    checkStackLimit stack = stack.take stackLimit := by
  unfold checkStackLimit
  split
  next beyond => rw [List.dropLast_eq_take, show stack.length - 1 = stackLimit by omega]
  next within => rw [List.take_of_length_le (by omega)]

theorem Reverts.check {canvas : Canvas} (reverts : Reverts canvas stack) :
    Reverts canvas (checkStackLimit stack) := by
  unfold checkStackLimit
  split
  · rw [← List.take_append_drop (stack.length - 1) stack] at reverts
    rw [List.dropLast_eq_take]
    exact reverts.of_append
  · exact reverts

theorem length_checkStackLimit (limited : stack.length ≤ stackLimit + 1) :
    (checkStackLimit stack).length ≤ stackLimit := by
  rw [checkStackLimit_eq limited, List.length_take]
  omega

theorem Reverts.push {undoable : Undoable} (reverts : Reverts before stack) (limited : stack.length ≤ stackLimit)
    (steps : Steps undoable.commands before after) :
    (checkStackLimit (undoable :: stack)).length ≤ stackLimit ∧
      Reverts after (checkStackLimit (undoable :: stack)) := by
  constructor
  · apply length_checkStackLimit
    rw [List.length_cons]
    omega
  · exact Reverts.check ⟨before, steps, reverts⟩

theorem checkStackLimit_cons (undoable : Undoable) (rest : List Undoable) :
    ∃ rest', checkStackLimit (undoable :: rest) = undoable :: rest' := by
  unfold checkStackLimit
  split
  next beyond =>
    cases rest with
    | nil => simp [stackLimit] at beyond
    | cons next rest => exact ⟨_, rfl⟩
  next => exact ⟨rest, rfl⟩

namespace EditedCanvas

/-! ## Undo and redo of one entry -/

variable {edited : EditedCanvas}

theorem undo_of_cons {undoable : Undoable} {rest : List Undoable}
    (isTop : edited.history.undoStack = undoable :: rest) (idle : edited.history.bulkInProgress = false) :
    edited.undo =
      { canvas := revertCommands edited.canvas undoable.commands
        history := { edited.history with
          undoStack := rest
          redoStack := checkStackLimit (undoable.reverse :: edited.history.redoStack) } } := by
  obtain ⟨canvas, undoStack, redoStack, currentBulkAction, bulkInProgress⟩ := edited
  obtain rfl : undoStack = undoable :: rest := isTop
  obtain rfl : bulkInProgress = false := idle
  cases undoable <;> rfl

variable {history : HistoryState}

theorem pushCommandToUndo_of_idle (command : Command) (clearRedo : Bool) (idle : history.bulkInProgress = false) :
    history.pushCommandToUndo command clearRedo =
      { history with
        undoStack := checkStackLimit (if history.currentBulkAction.isSome then history.undoStack
          else .command command :: history.undoStack)
        redoStack := if clearRedo then [] else history.redoStack
        currentBulkAction := history.currentBulkAction.map fun commands =>
          if commands.any (·.isEqualTo command) then commands else commands ++ [command] } := by
  obtain ⟨undoStack, redoStack, currentBulkAction, bulkInProgress⟩ := history
  obtain rfl : bulkInProgress = false := idle
  cases currentBulkAction with
  | none => cases clearRedo <;> rfl
  | some commands =>
    cases alreadyIn : commands.any (·.isEqualTo command) <;> cases clearRedo <;>
      simp only [HistoryState.pushCommandToUndo, alreadyIn, Bool.false_eq_true, if_true, if_false, Option.isSome_some,
        Option.map_some]

theorem redo_of_cons {edited : EditedCanvas} {undoable : Undoable} {rest : List Undoable}
    (isTop : edited.history.redoStack = undoable :: rest) (idle : edited.history.bulkInProgress = false) :
    edited.redo.canvas = revertCommands edited.canvas undoable.commands ∧ edited.redo.history.redoStack = rest ∧
      edited.redo.history.bulkInProgress = false := by
  obtain ⟨canvas, undoStack, redoStack, currentBulkAction, bulkInProgress⟩ := edited
  obtain rfl : redoStack = undoable :: rest := isTop
  obtain rfl : bulkInProgress = false := idle
  cases undoable with
  | bulk changes => exact ⟨rfl, rfl, rfl⟩
  | command change =>
    refine ⟨rfl, ?_⟩
    simp only [redo]
    rw [pushCommandToUndo_of_idle _ _ rfl]
    exact ⟨rfl, rfl⟩

/-! ## The invariant -/

/-- The stack of undos reverts what was done, below the recorded commands. -/
structure UndoesRecorded (edited : EditedCanvas) : Prop where
  idle : edited.history.bulkInProgress = false
  undoLimit : edited.history.undoStack.length ≤ stackLimit
  undos : ∃ base, Reverts base edited.history.undoStack ∧ Steps edited.recorded base edited.canvas

structure Consistent (edited : EditedCanvas) : Prop extends UndoesRecorded edited where
  redoLimit : edited.history.redoStack.length ≤ stackLimit
  redos : Reverts edited.canvas edited.history.redoStack

theorem Consistent.new (canvas : Canvas) : (new canvas).Consistent where
  idle := rfl
  undoLimit := Nat.zero_le _
  undos := ⟨canvas, trivial, rfl⟩
  redoLimit := Nat.zero_le _
  redos := trivial

theorem UndoesRecorded.reverts (undoes : edited.UndoesRecorded) (notRecording : edited.recorded = []) :
    Reverts edited.canvas edited.history.undoStack := by
  obtain ⟨base, reverts, steps⟩ := undoes.undos
  rw [notRecording] at steps
  obtain rfl : base = edited.canvas := steps
  exact reverts

theorem UndoesRecorded.push {before after : Canvas} {command : Command} (clearRedo : Bool)
    (undoes : UndoesRecorded ⟨before, history⟩) (described : Canvas.Describes command before after)
    (kept : IsKept ⟨before, history⟩ command after) :
    UndoesRecorded ⟨after, history.pushCommandToUndo command clearRedo⟩ := by
  rw [pushCommandToUndo_of_idle command clearRedo undoes.idle]
  cases recording : history.currentBulkAction with
  | none =>
    have notRecording : recorded ⟨before, history⟩ = [] := by simp [recorded, recording]
    have pushed : _ ∧ Reverts after (checkStackLimit (.command command :: history.undoStack)) :=
      (undoes.reverts notRecording).push undoes.undoLimit ⟨after, described, rfl⟩
    exact ⟨undoes.idle, pushed.1, after, pushed.2, rfl⟩
  | some commands =>
    have isRecorded : recorded ⟨before, history⟩ = commands := by simp [recorded, recording]
    obtain ⟨base, reverts, steps⟩ := undoes.undos
    rw [isRecorded] at steps
    have unchanged : checkStackLimit history.undoStack = history.undoStack := if_neg (Nat.not_lt.mpr undoes.undoLimit)
    refine ⟨undoes.idle, ?_, base, ?_, ?_⟩
    · simpa [unchanged] using undoes.undoLimit
    · simpa [unchanged] using reverts
    · rw [IsKept, isRecorded] at kept
      exact steps.record described kept

theorem UndoesRecorded.stop {canvas : Canvas} (undoes : UndoesRecorded ⟨canvas, history⟩) :
    UndoesRecorded ⟨canvas, history.stopRecordingUndo⟩ ∧ history.stopRecordingUndo.redoStack = history.redoStack := by
  obtain ⟨undoStack, redoStack, currentBulkAction, bulkInProgress⟩ := history
  obtain ⟨idle, undoLimit, base, reverts, steps⟩ := undoes
  have finished (stack : List Undoable) (limited : stack.length ≤ stackLimit) (reverts : Reverts canvas stack) :
      UndoesRecorded ⟨canvas, { undoStack := stack, redoStack, currentBulkAction := none, bulkInProgress }⟩ :=
    ⟨idle, limited, canvas, reverts, rfl⟩
  match currentBulkAction with
  | none | some [] =>
    obtain rfl : base = canvas := steps
    exact ⟨finished undoStack undoLimit reverts, rfl⟩
  | some (command :: commands) =>
    have pushed : _ ∧ Reverts canvas (checkStackLimit (.bulk (command :: commands) :: undoStack)) :=
      reverts.push undoLimit steps
    exact ⟨finished _ pushed.1 pushed.2, rfl⟩

theorem Consistent.undo (consistent : edited.Consistent) (notRecording : edited.recorded = []) :
    edited.undo.Consistent ∧ edited.undo.recorded = [] := by
  have reverts := consistent.reverts notRecording
  have undoLimit := consistent.undoLimit
  cases stack : edited.history.undoStack with
  | nil =>
    have unchanged : edited.undo = edited := by simp [EditedCanvas.undo, stack]
    rw [unchanged]
    exact ⟨consistent, notRecording⟩
  | cons undoable rest =>
    rw [stack] at reverts undoLimit
    obtain ⟨before, steps, reverts⟩ := reverts
    rw [undo_of_cons stack consistent.idle, steps.revert]
    have isReverse : Steps undoable.reverse.commands edited.canvas before := by
      rw [Undoable.commands_reverse]
      exact steps.reverse
    have pushed := consistent.redos.push consistent.redoLimit isReverse
    refine ⟨⟨⟨consistent.idle, ?_, before, reverts, ?_⟩, pushed.1, pushed.2⟩, notRecording⟩
    · exact Nat.le_of_succ_le undoLimit
    · show Steps edited.recorded before before
      rw [notRecording]
      rfl

theorem Consistent.redo (consistent : edited.Consistent) (recordsAll : edited.RecordsAll .redo) :
    edited.redo.Consistent := by
  obtain ⟨canvas, history⟩ := edited
  have redos := consistent.redos
  have redoLimit := consistent.redoLimit
  cases stack : history.redoStack with
  | nil =>
    have unchanged : EditedCanvas.redo ⟨canvas, history⟩ = ⟨canvas, history⟩ := by simp [EditedCanvas.redo, stack]
    rw [unchanged]
    exact consistent
  | cons undoable rest =>
    obtain ⟨isReverted, isRest, idle⟩ := @redo_of_cons ⟨canvas, history⟩ _ _ stack consistent.idle
    simp only [stack] at redos redoLimit
    obtain ⟨before, steps, reverts⟩ := redos
    have isBefore := isReverted.trans steps.revert
    refine ⟨?_, ?_, ?_⟩
    · cases undoable with
      | bulk commands =>
        have notRecording : recorded ⟨canvas, history⟩ = [] := by simpa only [RecordsAll, stack] using recordsAll
        have pushed : _ ∧ Reverts before (checkStackLimit (.bulk (reverseCommands commands) :: history.undoStack)) :=
          (consistent.reverts notRecording).push consistent.undoLimit steps.reverse
        simp only [EditedCanvas.redo, stack] at isBefore ⊢
        rw [isBefore]
        refine ⟨rfl, pushed.1, before, pushed.2, ?_⟩
        show Steps (recorded ⟨canvas, history⟩) before before
        rw [notRecording]
        rfl
      | command command =>
        obtain ⟨after, described, isAfter⟩ := steps
        rw [show after = canvas from isAfter] at described
        have isReverse := described.reverse
        have kept : IsKept ⟨canvas, history⟩ command.getReverseCommand (canvas.revert command) := by
          simpa only [RecordsAll, stack] using recordsAll
        simp only [EditedCanvas.redo, stack]
        exact UndoesRecorded.push false ⟨consistent.idle, consistent.undoLimit, consistent.undos⟩
          ⟨isReverse.1, rfl⟩ kept
    · rw [isRest]
      exact Nat.le_of_succ_le redoLimit
    · rw [isRest, isBefore]
      exact reverts

/-- Each step that records what it does keeps the stacks in line with the canvas. -/
theorem Consistent.step {edited : EditedCanvas} {event : HistoryEvent} (consistent : edited.Consistent)
    (recordsAll : edited.RecordsAll event) : (edited.step event).Consistent := by
  obtain ⟨canvas, history⟩ := edited
  cases event with
  | change command =>
    obtain ⟨fits, kept⟩ := recordsAll
    have pushed := consistent.push true ⟨fits, rfl⟩ kept
    have emptied : (history.pushCommandToUndo command true).redoStack = [] := by
      rw [pushCommandToUndo_of_idle command true consistent.idle]
      rfl
    refine ⟨pushed, ?_, ?_⟩
    · simp [EditedCanvas.step, emptied]
    · simp [EditedCanvas.step, emptied, Reverts]
  | startRecordingUndo =>
    have reverts := consistent.reverts recordsAll
    exact ⟨⟨consistent.idle, consistent.undoLimit, canvas, reverts, rfl⟩, consistent.redoLimit, consistent.redos⟩
  | stopRecordingUndo =>
    obtain ⟨undoes, redoLimit, redos⟩ := consistent
    have stopped := undoes.stop
    refine ⟨stopped.1, ?_, ?_⟩
    · simpa only [EditedCanvas.step, stopped.2] using redoLimit
    · simpa only [EditedCanvas.step, stopped.2] using redos
  | undo =>
    obtain notRecording | nothing := recordsAll
    · exact (consistent.undo notRecording).1
    · have unchanged : EditedCanvas.undo ⟨canvas, history⟩ = ⟨canvas, history⟩ := by
        obtain ⟨undoStack, redoStack, currentBulkAction, bulkInProgress⟩ := history
        obtain rfl : undoStack = [] := nothing
        rfl
      rw [EditedCanvas.step, unchanged]
      exact consistent
  | redo => exact consistent.redo recordsAll

theorem Consistent.redo_undo (consistent : edited.Consistent) (notRecording : edited.recorded = []) {times : Nat}
    (within : times ≤ edited.history.undoStack.length) :
    (EditedCanvas.redo^[times] (EditedCanvas.undo^[times] edited)).canvas = edited.canvas ∧
      (EditedCanvas.redo^[times] (EditedCanvas.undo^[times] edited)).history.redoStack =
        edited.history.redoStack.take (stackLimit - times) ∧
      (EditedCanvas.redo^[times] (EditedCanvas.undo^[times] edited)).history.bulkInProgress = false := by
  induction times generalizing edited with
  | zero => exact ⟨rfl, (List.take_of_length_le consistent.redoLimit).symm, consistent.idle⟩
  | succ times ih =>
    cases stack : edited.history.undoStack with
    | nil => simp [stack] at within
    | cons undoable rest =>
      have undoLimit := consistent.undoLimit
      have redoLimit := consistent.redoLimit
      have reverts := consistent.reverts notRecording
      have undone := consistent.undo notRecording
      have isUndone := undo_of_cons stack consistent.idle
      rw [stack] at within undoLimit reverts
      obtain ⟨before, steps, -⟩ := reverts
      rw [List.length_cons] at within undoLimit
      have earlier := ih undone.1 undone.2 (by simp only [isUndone]; omega)
      rw [← Function.iterate_succ_apply EditedCanvas.undo] at earlier
      obtain ⟨isCanvas, isRedo, idle⟩ := earlier
      -- what the undo has put there is on the top of the stack of redos
      have isTop : (EditedCanvas.redo^[times] (EditedCanvas.undo^[times + 1] edited)).history.redoStack =
          undoable.reverse :: edited.history.redoStack.take (stackLimit - (times + 1)) := by
        rw [isRedo, isUndone]
        show (checkStackLimit (undoable.reverse :: edited.history.redoStack)).take (stackLimit - times) = _
        rw [checkStackLimit_eq (by rw [List.length_cons]; omega), List.take_take,
          show min (stackLimit - times) stackLimit = (stackLimit - (times + 1)) + 1 by omega, List.take_succ_cons]
      rw [Function.iterate_succ_apply']
      obtain ⟨isReverted, isRest, isIdle⟩ := redo_of_cons isTop idle
      refine ⟨?_, isRest, isIdle⟩
      rw [isReverted, isCanvas, isUndone, Undoable.commands_reverse]
      show revertCommands (revertCommands edited.canvas undoable.commands) _ = _
      rw [steps.revert]
      exact steps.reverse.revert

structure Recording (start : Canvas) (edited : EditedCanvas) (recorded : List Command) : Prop where
  idle : edited.history.bulkInProgress = false
  isRecording : edited.history.currentBulkAction = some recorded
  steps : Steps recorded start edited.canvas

variable {start : Canvas}

theorem Recording.change {recorded : List Command} {command : Command} (recording : Recording start edited recorded)
    (recordsAll : edited.RecordsAll (.change command)) :
    ∃ recorded' ≠ [], Recording start (edited.step (.change command)) recorded' := by
  obtain ⟨fits, kept⟩ := recordsAll
  have isRecorded : edited.recorded = recorded := by simp [EditedCanvas.recorded, recording.isRecording]
  rw [IsKept, isRecorded] at kept
  refine ⟨_, ?_, ?_, ?_, recording.steps.record ⟨fits, rfl⟩ kept⟩
  · split
    next alreadyIn =>
      rintro rfl
      simp at alreadyIn
    next => simp
  · rw [EditedCanvas.step, pushCommandToUndo_of_idle _ _ recording.idle]
    exact recording.idle
  · rw [EditedCanvas.step, pushCommandToUndo_of_idle _ _ recording.idle, recording.isRecording]
    rfl

theorem Recording.changes {recorded commands : List Command} (recording : Recording start edited recorded)
    (changed : recorded ≠ [] ∨ commands ≠ [])
    (every : Runs.Every EditedCanvas.step RecordsAll edited (commands.map .change)) :
    ∃ recorded' ≠ [], Recording start ((commands.map .change).foldl EditedCanvas.step edited) recorded' := by
  induction commands generalizing edited recorded with
  | nil => exact ⟨recorded, by simpa using changed, recording⟩
  | cons command rest ih =>
    obtain ⟨recorded', isChanged, recording⟩ := recording.change every.1
    exact ih recording (Or.inl isChanged) every.2

theorem Recording.stop {recorded : List Command} (recording : Recording start edited recorded)
    (changed : recorded ≠ []) :
    (edited.step .stopRecordingUndo).undo.canvas = start ∧
      (edited.step .stopRecordingUndo).undo.redo.canvas = (edited.step .stopRecordingUndo).canvas := by
  obtain ⟨canvas, undoStack, redoStack, currentBulkAction, bulkInProgress⟩ := edited
  obtain ⟨rfl, rfl, steps⟩ := recording
  obtain ⟨command, rest, rfl⟩ := List.exists_cons_of_ne_nil changed
  obtain ⟨undos, isUndo⟩ := checkStackLimit_cons (.bulk (command :: rest)) undoStack
  obtain ⟨redos, isRedo⟩ := checkStackLimit_cons (.bulk (reverseCommands (command :: rest))) redoStack
  have stopped : EditedCanvas.step ⟨canvas, undoStack, redoStack, some (command :: rest), false⟩ .stopRecordingUndo =
      ⟨canvas, .bulk (command :: rest) :: undos, redoStack, none, false⟩ := by
    simp only [EditedCanvas.step, HistoryState.stopRecordingUndo, isUndo]
  have undone : EditedCanvas.undo ⟨canvas, .bulk (command :: rest) :: undos, redoStack, none, false⟩ =
      ⟨start, undos, .bulk (reverseCommands (command :: rest)) :: redos, none, false⟩ := by
    rw [undo_of_cons rfl rfl, ← isRedo]
    simp only [Undoable.commands, Undoable.reverse, steps.revert]
  have redone := (@redo_of_cons ⟨start, undos, .bulk (reverseCommands (command :: rest)) :: redos, none, false⟩ _ _
    rfl rfl).1
  rw [stopped, undone]
  exact ⟨rfl, redone.trans steps.reverse.revert⟩

theorem recordingExact_of_recordsAll {commands : List Command} (idle : edited.history.bulkInProgress = false)
    (changed : commands ≠ []) (every : Runs.Every step RecordsAll edited (recording commands)) :
    edited.RecordingExact commands := by
  obtain ⟨notRecording, every⟩ := every
  have changes := (Runs.every_append.mp every).1
  have started : Recording edited.canvas (edited.step .startRecordingUndo) [] := ⟨idle, rfl, rfl⟩
  obtain ⟨recorded, isChanged, recording⟩ := started.changes (Or.inr changed) changes
  simp only [RecordingExact, EditedCanvas.recording, List.foldl_cons, List.foldl_append, List.foldl_nil]
  exact recording.stop isChanged

theorem Consistent.undoRedoExact (consistent : edited.Consistent) : edited.UndoRedoExact :=
  fun notRecording _ within => (consistent.redo_undo notRecording within).1

/-- A recording without a change that is taken for another one is undone and redone exactly, and so are any undos in
a run in which everything is recorded. -/
theorem undo_redo_exact_of_recordsAll (edited : EditedCanvas) (commands : List Command) (canvas : Canvas)
    (events : List HistoryEvent) :
    (edited.history.bulkInProgress = false → commands ≠ [] →
      Runs.Every step RecordsAll edited (recording commands) → edited.RecordingExact commands) ∧
    (Runs.Every step RecordsAll (new canvas) events → Runs.Always step UndoRedoExact (new canvas) events) := by
  constructor
  · intro idle changed every
    exact recordingExact_of_recordsAll idle changed every
  · intro every
    have always := Runs.always_of_invariant (fun _ _ recordsAll consistent => Consistent.step consistent recordsAll)
      (Consistent.new canvas) every
    exact always.imp fun _ consistent => consistent.undoRedoExact

/-- A node is replaced by another one of its name. -/
def replacement : List Command :=
  [.removeNode ⟨"Set", (0, 0), false⟩, .addNode ⟨"Set", (10, 10), false⟩]

def canvasOfSet : Canvas :=
  { nodes := fun name => if name = "Set" then some ⟨(0, 0), false⟩ else none, connections := ∅ }

theorem undo_redo_exact_of_recordsAll_of_example :
    (new canvasOfSet).RecordingExact [.removeNode ⟨"Set", (0, 0), false⟩] ∧
      Runs.Always step UndoRedoExact (new canvasOfSet)
        [.change (.removeNode ⟨"Set", (0, 0), false⟩), .undo, .redo] := by
  have exact := undo_redo_exact_of_recordsAll (new canvasOfSet) [.removeNode ⟨"Set", (0, 0), false⟩]
    canvasOfSet [.change (.removeNode ⟨"Set", (0, 0), false⟩), .undo, .redo]
  constructor
  · apply exact.1 rfl (by simp)
    refine ⟨rfl, ⟨rfl, Or.inl ?_⟩, trivial, trivial⟩
    simp [recorded, step, new, HistoryState.startRecordingUndo]
  · apply exact.2
    refine ⟨⟨rfl, Or.inl ?_⟩, Or.inl rfl, Or.inl ?_, trivial⟩
    · simp [recorded, new]
    · show ∀ earlier ∈ [], _
      simp

/-- The addition after a removal is taken for the removal and not recorded. -/
theorem not_undo_redo_exact_of_replacement :
    ¬ ((∀ (edited : EditedCanvas) (commands : List Command), edited.history.bulkInProgress = false → commands ≠ [] →
        Runs.Every step IsDescribed edited (recording commands) → edited.RecordingExact commands) ∧
      ∀ (canvas : Canvas) (events : List HistoryEvent), Runs.Every step IsDescribed (new canvas) events →
        Runs.Always step UndoRedoExact (new canvas) events) := by
  rintro ⟨exact, -⟩
  have described : Runs.Every step IsDescribed (new canvasOfSet) (recording replacement) :=
    ⟨trivial, rfl, rfl, trivial, trivial⟩
  have redone := (exact (new canvasOfSet) replacement rfl (by simp [replacement]) described).2
  have lost := congrArg (fun canvas => (canvas.nodes "Set").isSome) redone
  revert lost
  decide

end EditedCanvas

end N8n.Editor
