import N8n.Core.WaitingRuns

/-! # The execution loop

The loop of `WorkflowExecute.processRunExecutionData`
(`packages/core/src/execution-engine/workflow-execute.ts`) as a transition
system.  A step is one turn of the loop up to the hand-over of its output, or
one look at the waiting nodes at the end of a turn.  What a node does when it
runs is an argument of the step.  Hooks, hints, paired items, cancellation,
timeouts and `waitTill` are left out.
-/

namespace N8n.Core

variable {Item : Type}

/-! ## What the loop works on -/

/-- `requiredInputs` of a node type, its expression resolved for the node. -/
inductive RequiredInputs where
  | indexes (inputs : List Nat)
  | amount (inputs : Nat)
deriving DecidableEq

/-- The members of a node type's description the loop reads. -/
structure NodeDescription where
  /-- `inputs.length` -/
  inputs : Nat
  requiredInputs : Option RequiredInputs := none

/-- What stays the same during a run. -/
structure Environment where
  workflow : Workflow
  description : INode → NodeDescription
  runNodeFilter : Option (List String) := none
  destinationNode : Option String := none

/-- What the attempts to run a node leave behind: `nodeSuccessData`, and whether there is an
`executionError`.  `nothing` is `null` without an error. -/
inductive Attempted (Item : Type) where
  | nothing
  | succeeded (nodeSuccessData : List (Slot (List Item)))
  | failed (nodeSuccessData : NodeOutput Item)

/-- Where the loop stands: at its condition, at the look at the waiting nodes, or behind a `break`. -/
inductive Phase where
  | condition
  | waitingNodes
  | stopped
deriving DecidableEq

structure Config (Item : Type) where
  phase : Phase := .condition
  execution : ExecutionState Item
  runData : IRunData Item
  lastExecutionTry : Option (String × Nat) := none
  /-- The destination node was executed. -/
  destinationReached : Bool := false

/-! ## One turn -/

def isSkipped (env : Environment) (nodeName : String) : Bool :=
  match env.runNodeFilter with
  | none => false
  | some runNodeFilter => nodeName ∉ runNodeFilter

/-- The data that is needed to run the node is not available. -/
def inputDataMissing (workflow : Workflow) (nodeName : String) (data : ITaskDataConnections Item) :
    Except Thrown Bool :=
  match (workflow.connectionsByDestinationNode.get? nodeName).bind (·.get? .main) with
  | none => .ok false
  | some inputConnections =>
    (List.range inputConnections.length).anyM fun connectionIndex => do
      let highestNodes ← workflow.getHighestNode nodeName .main (some connectionIndex)
      -- all incoming nodes are disabled
      if highestNodes.isEmpty then .ok false
      else
        match data.get? .main with
        | none => .ok true
        | some main =>
          .ok (forceInputNodeExecution workflow &&
            (main.length < connectionIndex || (SparseArray.read main connectionIndex).isNull))

def continuesOnError (node : INode) : Bool :=
  node.continueOnFail = some true || node.onError = some .continueRegularOutput ||
    node.onError = some .continueErrorOutput

/-- A failed node that continues hands on its first input. -/
def passedThrough (data : ITaskDataConnections Item) (nodeSuccessData : NodeOutput Item) : NodeOutput Item :=
  match data.get? .main with
  | none | some [] | some (.null :: _) => nodeSuccessData
  | some (first :: _) => some [first]

/-- `a` need not come behind `b`.  What is more to the top-left is added last, as the last one added
is executed first. -/
def staysBefore (a b : IConnection × Nat × (Int × Int)) : Prop :=
  ¬(a.2.2.2 < b.2.2.2 ∨ (a.2.2.2 = b.2.2.2 ∧ a.2.2.1 < b.2.2.1))

instance : DecidableRel staysBefore := fun _ _ => inferInstanceAs (Decidable (¬_))

/-- The connections over which a node hands on its output, with the output index. -/
def connectionsToFollow (workflow : Workflow) (nodeName : String) (nodeSuccessData : List (Slot (List Item))) :
    Except Thrown (List (IConnection × Nat)) :=
  match (workflow.connectionsBySourceNode.get? nodeName).bind (·.get? .main) with
  | none => .ok []
  | some outputs =>
    let all := outputs.zipIdx.flatMap fun (slot, outputIndex) => (slot.getD []).map (·, outputIndex)
    if all.any (fun connection => !workflow.nodes.has connection.1.node) then
      .error (.applicationError "Destination node not found")
    else
      .ok (all.filter fun (connectionData, outputIndex) =>
        match SparseArray.read nodeSuccessData outputIndex with
        | .full items => !items.isEmpty || (0 < connectionData.index && forceInputNodeExecution workflow)
        | _ => false)

def handOver (workflow : Workflow) [Inhabited Item] (runData : IRunData Item) (nodeName : String)
    (runIndex : Nat) (nodeSuccessData : List (Slot (List Item))) (state : ExecutionState Item) :
    Except Thrown (ExecutionState Item) := do
  let toFollow ← connectionsToFollow workflow nodeName nodeSuccessData
  let nodesToAdd :=
    if workflow.settings.executionOrder = some "v1" then
      ((toFollow.map fun (connectionData, outputIndex) =>
        (connectionData, outputIndex,
          ((workflow.getNode connectionData.node).map (·.position)).getD (0, 0))).insertionSort
            staysBefore).map fun (connectionData, outputIndex, _) => (connectionData, outputIndex)
    else toFollow
  nodesToAdd.foldlM (fun state (connectionData, outputIndex) =>
    addNodeToBeExecuted workflow runData state
      { connectionData, outputIndex, parentNodeName := nodeName
        nodeSuccessData := some nodeSuccessData, runIndex }) state

def finishNode (env : Environment) [Inhabited Item] (node : INode) (runIndex : Nat)
    (nodeSuccessData : List (Slot (List Item))) (config : Config Item) : Except Thrown (Config Item) := do
  if nodeSuccessData.any (!·.isFull) then .error (.typeError "execution is not iterable")
  else
    let runs := (config.runData.get? node.name).getD []
    let runData := config.runData.set node.name (runs ++ [⟨some (onlyMain nodeSuccessData)⟩])
    if env.destinationNode = some node.name then
      .ok { config with runData, destinationReached := true }
    else
      let execution ← handOver env.workflow runData node.name runIndex nodeSuccessData config.execution
      .ok { config with phase := .waitingNodes, execution, runData }

/-- One turn of the loop, up to the look at the waiting nodes. -/
def executeNext (env : Environment) [Inhabited Item] (attempted : Attempted Item) (config : Config Item) :
    Except Thrown (Config Item) :=
  match config.execution.nodeExecutionStack with
  | [] => .ok config
  | executionData :: rest =>
    match executionData.node with
    | none => .error (.typeError "Cannot read properties of undefined (reading 'name')")
    | some node => do
      let taken := { config with execution := { config.execution with nodeExecutionStack := rest } }
      let runs := (config.runData.get? node.name).getD []
      let runIndex := runs.length
      if config.lastExecutionTry = some (node.name, runIndex) then
        .error (.applicationError "Stopped execution because it seems to be in an endless loop")
      else if isSkipped env node.name then .ok taken
      else
        let dataMissing ← inputDataMissing env.workflow node.name executionData.data
        if dataMissing then
          .ok { config with
            execution := { config.execution with nodeExecutionStack := rest ++ [executionData] }
            lastExecutionTry := some (node.name, runIndex) }
        else
          match attempted with
          | .nothing => .ok taken
          | .succeeded nodeSuccessData => finishNode env node runIndex nodeSuccessData taken
          | .failed nodeSuccessData =>
            if continuesOnError node then
              match passedThrough executionData.data nodeSuccessData with
              | none => .error (.typeError "nodeSuccessData is not iterable")
              | some nodeSuccessData => finishNode env node runIndex nodeSuccessData taken
            else
              .ok { config with
                phase := .stopped
                runData := config.runData.set node.name (runs ++ [⟨none⟩]) }

/-! ## The look at the waiting nodes -/

def requiredInputsOf (env : Environment) (node : INode) : Option RequiredInputs :=
  if env.workflow.settings.executionOrder = some "v1" then (env.description node).requiredInputs else none

/-- The node is only allowed to execute if all inputs received data. -/
def allInputsRequired (env : Environment) (node : INode) : Bool :=
  match requiredInputsOf env node with
  | none => false
  | some (.indexes inputs) => inputs.length = (env.description node).inputs
  | some (.amount inputs) => inputs = (env.description node).inputs

/-- The inputs which received any kind of data, even an empty array. -/
def inputsWithData (main : List (Slot (List Item))) : List Nat :=
  (List.range main.length).filter fun index => (SparseArray.read main index).isFull

def requirementMet (requiredInputs : Option RequiredInputs) (main : List (Slot (List Item))) : Bool :=
  match requiredInputs with
  | none => true
  | some (.indexes inputs) => inputs.all (· ∈ inputsWithData main)
  | some (.amount inputs) => inputs ≤ (inputsWithData main).length

/-- The run index that sorts first as a string. -/
def firstRunIndex {α : Type} (nodeWaiting : OrderedMap Nat α) : Option Nat :=
  (nodeWaiting.keys.insertionSort (fun a b => toString a ≤ toString b)).head?

/-- The entry of a waiting node that gets executed or removed, if the node is not skipped. -/
def waitingEntryToTake (env : Environment) (state : ExecutionState Item) (nodeName : String) :
    Except Thrown (Option (Nat × List (Slot (List Item)))) :=
  match env.workflow.getNode nodeName with
  | none => .ok none
  | some checkNode =>
    let waitingNodes := state.waitingExecution.keys
    if allInputsRequired env checkNode then .ok none
    else if (env.workflow.getParentNodes nodeName).any (· ∈ waitingNodes) then .ok none
    else
      match firstRunIndex (state.waitingExecution.row nodeName) with
      | none => .error (.typeError "Cannot read properties of undefined (reading 'main')")
      | some runIndex => do
        let main ← mainOf ((state.waitingExecution.row nodeName).get? runIndex)
        .ok (if requirementMet (requiredInputsOf env checkNode) main then some (runIndex, main) else none)

structure WaitingEntry (Item : Type) where
  nodeName : String
  runIndex : Nat
  main : List (Slot (List Item))

/-- The loop over the waiting nodes, up to the first that is not skipped. -/
def findEntryToTake (env : Environment) (state : ExecutionState Item) :
    List String → Except Thrown (Option (WaitingEntry Item))
  | [] => .ok none
  | nodeName :: rest => do
    match ← waitingEntryToTake env state nodeName with
    | some (runIndex, main) => .ok (some ⟨nodeName, runIndex, main⟩)
    | none => findEntryToTake env state rest

/-- An input for which never any data got received is an empty array. -/
def emptyForNull (slot : Slot (List Item)) : Slot (List Item) := if slot.isNull then .full [] else slot

def hasItems (main : List (Slot (List Item))) : Bool := main.any fun slot => !(slot.getD []).isEmpty

def takeEntry (env : Environment) (entry : WaitingEntry Item) (config : Config Item) :
    Except Thrown (Config Item) :=
  let execution := config.execution
  if !execution.waitingExecutionSource.has entry.nodeName then
    .error (.typeError "Cannot read properties of undefined")
  else if hasItems entry.main then
    let inputs := ((env.workflow.getNode entry.nodeName).map (env.description ·)).elim 0 (·.inputs)
    let taskDataMain := entry.main.map emptyForNull
    let item : IExecuteData Item :=
      { node := env.workflow.getNode entry.nodeName
        data := onlyMain (taskDataMain ++ List.replicate (inputs - taskDataMain.length) (.full []))
        source := (execution.waitingExecutionSource.row entry.nodeName).get? entry.runIndex }
    let pushed := { execution with nodeExecutionStack := execution.nodeExecutionStack ++ [item] }
    .ok { config with phase := .condition, execution := removeWaiting pushed entry.nodeName entry.runIndex }
  else .ok { config with execution := removeWaiting execution entry.nodeName entry.runIndex }

/-- One look at the waiting nodes.  After an empty entry the search starts again. -/
def lookAtWaiting (env : Environment) (config : Config Item) : Except Thrown (Config Item) :=
  if !config.execution.nodeExecutionStack.isEmpty then .ok { config with phase := .condition }
  else do
    match ← findEntryToTake env config.execution config.execution.waitingExecution.keys with
    | none => .ok { config with phase := .condition }
    | some entry => takeEntry env entry config

/-! ## Runs -/

def step (env : Environment) [Inhabited Item] (attempted : Attempted Item) (config : Config Item) :
    Except Thrown (Config Item) :=
  match config.phase with
  | .condition => executeNext env attempted config
  | .waitingNodes => lookAtWaiting env config
  | .stopped => .ok config

def Ended (config : Config Item) : Prop := config.phase = .condition ∧ config.execution.nodeExecutionStack = []

/-- The configurations a run reaches, whatever the nodes do; every step meets `Meets`. -/
inductive LoopRun (env : Environment) [Inhabited Item] (Meets : Attempted Item → Config Item → Prop)
    (start : Config Item) : Config Item → Prop
  | start : LoopRun env Meets start start
  | step {config next : Config Item} {attempted : Attempted Item} (run : LoopRun env Meets start config)
      (goesOn : ¬Ended config) (meets : Meets attempted config)
      (returns : step env attempted config = .ok next) : LoopRun env Meets start next

/-! ## Abandoned nodes -/

/-- The entry has items, its node may execute with what it has, and nothing waits above the node. -/
structure Eligible (env : Environment) (state : ExecutionState Item) (nodeName : String) (key : Nat) : Prop where
  withItems : ∃ entry main node, (state.waitingExecution.row nodeName).get? key = some entry ∧
    entry.get? .main = some main ∧ hasItems main = true ∧ env.workflow.getNode nodeName = some node ∧
      requirementMet (requiredInputsOf env node) main = true
  noneAbove : ∀ other, other ≠ nodeName → Relation.TransGen env.workflow.Feeds other nodeName →
    ¬state.waitingExecution.has other

/-- The run has left no eligible entry behind. -/
def NoneAbandoned (env : Environment) (config : Config Item) : Prop :=
  Ended config → config.destinationReached = false → ¬∃ nodeName key, Eligible env config.execution nodeName key

/-- The node is not skipped: not all its inputs are required, and the entry that sorts first has the
data the node requires. -/
structure IsTaken (env : Environment) (state : ExecutionState Item) (nodeName : String) : Prop where
  taken : ∃ node key entry main, env.workflow.getNode nodeName = some node ∧
    allInputsRequired env node = false ∧ firstRunIndex (state.waitingExecution.row nodeName) = some key ∧
      (state.waitingExecution.row nodeName).get? key = some entry ∧ entry.get? .main = some main ∧
        requirementMet (requiredInputsOf env node) main = true

/-- What a step must meet while an eligible entry waits: the last item of the stack is not given up
without a look at the waiting nodes, and the look does not skip all nodes that have eligible entries. -/
def LeavesNone (env : Environment) (attempted : Attempted Item) (config : Config Item) : Prop :=
  (∃ nodeName key, Eligible env config.execution nodeName key) →
    match config.phase with
    | .condition => ∀ executionData node, config.execution.nodeExecutionStack = [executionData] →
        executionData.node = some node → isSkipped env node.name = false ∧ attempted ≠ .nothing
    | .waitingNodes => config.execution.nodeExecutionStack = [] →
        ∃ nodeName key, Eligible env config.execution nodeName key ∧ IsTaken env config.execution nodeName
    | .stopped => True

theorem Eligible.of_waiting {env : Environment} {state other : ExecutionState Item} {nodeName : String}
    {key : Nat} (same : state.waitingExecution = other.waitingExecution)
    (eligible : Eligible env state nodeName key) : Eligible env other nodeName key :=
  ⟨same ▸ eligible.withItems, same ▸ eligible.noneAbove⟩

theorem findEntryToTake_none {env : Environment} {state : ExecutionState Item} {names : List String}
    (returns : findEntryToTake env state names = .ok none) :
    ∀ nodeName ∈ names, waitingEntryToTake env state nodeName = .ok none := by
  induction names with
  | nil =>
    intro nodeName member
    cases member
  | cons first rest ih =>
    rw [findEntryToTake] at returns
    obtain ⟨entry, looked, returns⟩ := Loop.bind_inv returns
    cases entry with
    | some found => cases returns
    | none =>
      intro nodeName member
      cases List.mem_cons.mp member with
      | inl isFirst => exact isFirst ▸ looked
      | inr inRest => exact ih returns nodeName inRest

theorem IsTaken.found {env : Environment} {state : ExecutionState Item} {nodeName : String} {key : Nat}
    (isTaken : IsTaken env state nodeName) (eligible : Eligible env state nodeName key) :
    nodeName ∈ state.waitingExecution.keys ∧ waitingEntryToTake env state nodeName ≠ .ok none := by
  obtain ⟨node, first, entry, main, isNode, notAll, isFirst, found, isMain, met⟩ := isTaken.taken
  constructor
  · exact OrderedMap.has_iff.mp (has_of_get?_row found)
  · have noParent : (env.workflow.getParentNodes nodeName).any (· ∈ state.waitingExecution.keys) = false := by
      rw [List.any_eq_false]
      intro other member
      obtain ⟨path, different⟩ := Workflow.getParentNodes_sound member
      have notWaiting := eligible.noneAbove other different path
      rw [OrderedMap.has_iff] at notWaiting
      simpa using notWaiting
    have isMainOk : mainOf ((state.waitingExecution.row nodeName).get? first) = .ok main := by
      rw [mainOf, found, Option.bind_some, isMain]
    rw [waitingEntryToTake, isNode]
    simp only [notAll, noParent, isFirst, isMainOk, Bool.false_eq_true, if_false]
    show Except.ok (if requirementMet (requiredInputsOf env node) main = true then some (first, main) else none) ≠
      .ok none
    rw [if_pos met]
    simp

theorem executeNext_ended {env : Environment} [Inhabited Item] {attempted : Attempted Item}
    {config next : Config Item} (notEmpty : config.execution.nodeExecutionStack ≠ [])
    (returns : executeNext env attempted config = .ok next) (ended : Ended next)
    (notReached : next.destinationReached = false) :
    next.execution.waitingExecution = config.execution.waitingExecution ∧
      ∃ executionData node, config.execution.nodeExecutionStack = [executionData] ∧
        executionData.node = some node ∧ (isSkipped env node.name = true ∨ attempted = .nothing) := by
  rw [executeNext] at returns
  split at returns
  · contradiction
  rename_i executionData rest isStack
  split at returns
  · cases returns
  rename_i node isNode
  dsimp only at returns
  split at returns
  · cases returns
  split at returns
  · rename_i skipped
    cases returns
    obtain ⟨_, isEmpty⟩ := ended
    obtain rfl : rest = [] := isEmpty
    exact ⟨rfl, executionData, node, isStack, isNode, .inl skipped⟩
  obtain ⟨dataMissing, _, returns⟩ := Loop.bind_inv returns
  split at returns
  · cases returns
    obtain ⟨_, isEmpty⟩ := ended
    simp at isEmpty
  -- a node that finishes leads to the waiting nodes or is the destination
  have finished : ∀ nodeSuccessData, finishNode env node ((config.runData.get? node.name).getD []).length
      nodeSuccessData { config with execution := { config.execution with nodeExecutionStack := rest } } ≠
        .ok next := by
    intro nodeSuccessData finishes
    rw [finishNode] at finishes
    split at finishes
    · cases finishes
    dsimp only at finishes
    split at finishes
    · cases finishes
      cases notReached
    · obtain ⟨execution, _, finishes⟩ := Loop.bind_inv finishes
      cases finishes
      cases ended.1
  cases attempted with
  | nothing =>
    cases returns
    obtain ⟨_, isEmpty⟩ := ended
    obtain rfl : rest = [] := isEmpty
    exact ⟨rfl, executionData, node, isStack, isNode, .inr rfl⟩
  | succeeded nodeSuccessData => exact absurd returns (finished nodeSuccessData)
  | failed nodeSuccessData =>
    dsimp only at returns
    split at returns
    · split at returns
      · cases returns
      · exact absurd returns (finished _)
    · cases returns
      cases ended.1

theorem lookAtWaiting_ended {env : Environment} {config next : Config Item}
    (isLooking : config.phase = .waitingNodes) (returns : lookAtWaiting env config = .ok next)
    (ended : Ended next) : next.execution = config.execution ∧ config.execution.nodeExecutionStack = [] ∧
      findEntryToTake env config.execution config.execution.waitingExecution.keys = .ok none := by
  rw [lookAtWaiting] at returns
  split at returns
  · rename_i notEmpty
    cases returns
    have isEmpty : config.execution.nodeExecutionStack = [] := ended.2
    simp [isEmpty] at notEmpty
  rename_i isEmpty
  obtain ⟨found, search, returns⟩ := Loop.bind_inv returns
  cases found with
  | none =>
    cases returns
    exact ⟨rfl, ended.2, search⟩
  | some entry =>
    dsimp only at returns
    rw [takeEntry] at returns
    dsimp only at returns
    split at returns
    · cases returns
    split at returns
    · cases returns
      obtain ⟨_, noneLeft⟩ := ended
      rw [stack_removeWaiting] at noneLeft
      simp at noneLeft
    · cases returns
      exact absurd (isLooking.symm.trans ended.1) (by decide)

/-- A run leaves no eligible entry behind, if each of its steps meets the condition. -/
theorem noneAbandoned_of_leavesNone {env : Environment} [Inhabited Item] {start config : Config Item}
    (starts : start.execution.nodeExecutionStack = [] → ¬∃ nodeName key, Eligible env start.execution nodeName key)
    (run : LoopRun env (LeavesNone env) start config) : NoneAbandoned env config := by
  induction run with
  | start =>
    intro ended _
    exact starts ended.2
  | step run goesOn meets returns noneBefore =>
    rename_i before next attempted
    intro ended notReached waits
    rw [step] at returns
    cases phase : before.phase with
    | condition =>
      rw [phase] at returns
      have notEmpty : before.execution.nodeExecutionStack ≠ [] := fun isEmpty => goesOn ⟨phase, isEmpty⟩
      obtain ⟨same, executionData, node, isLast, isNode, exit⟩ :=
        executeNext_ended notEmpty returns ended notReached
      obtain ⟨nodeName, key, eligible⟩ := waits
      have meets := meets ⟨nodeName, key, eligible.of_waiting same⟩
      rw [phase] at meets
      obtain ⟨notSkipped, hasOutput⟩ := meets executionData node isLast isNode
      cases exit with
      | inl skipped => exact absurd skipped (by simp [notSkipped])
      | inr nothing => exact hasOutput nothing
    | waitingNodes =>
      rw [phase] at returns
      obtain ⟨same, isEmpty, search⟩ := lookAtWaiting_ended phase returns ended
      have meets := meets (same ▸ waits)
      rw [phase] at meets
      obtain ⟨nodeName, key, eligible, isTaken⟩ := meets isEmpty
      obtain ⟨listed, notSkipped⟩ := isTaken.found eligible
      exact notSkipped (findEntryToTake_none search nodeName listed)
    | stopped =>
      rw [phase] at returns
      cases returns
      exact absurd (phase.symm.trans ended.1) (by decide)

theorem leavesNone_of_noneWaiting {env : Environment} {attempted : Attempted Item} {config : Config Item}
    (noneWaiting : config.execution.waitingExecution.entries = []) : LeavesNone env attempted config := by
  intro waits
  obtain ⟨nodeName, key, eligible⟩ := waits
  obtain ⟨entry, _, _, found, _⟩ := eligible.withItems
  have listed := OrderedMap.has_iff.mp (has_of_get?_row found)
  rw [OrderedMap.keys, noneWaiting] at listed
  cases listed

namespace TwoBranches

def env : Environment where
  workflow := workflow
  description := fun _ => { inputs := 2 }

def startOf (node : INode) : IExecuteData Nat where
  node := some node
  data := onlyMain [.full [1]]
  source := none

def startWith (nodes : List INode) : Config Nat where
  execution := ⟨nodes.map startOf, ∅, ∅⟩
  runData := ∅

/-- Only the right branch runs.  The last look at the waiting nodes executes what it left. -/
theorem noneAbandoned : ∃ config, LoopRun env (LeavesNone env) (startWith [right]) config ∧ Ended config ∧
    config.runData.has "merge" ∧ NoneAbandoned env config := by
  have steps : ∃ one two three four,
      step env (.succeeded [.full [20]]) (startWith [right]) = .ok one ∧ step env .nothing one = .ok two ∧
      step env (.succeeded [.full [30]]) two = .ok three ∧ step env .nothing three = .ok four ∧
      (¬Ended one ∧ ¬Ended two ∧ ¬Ended three ∧ Ended four ∧ four.runData.has "merge") ∧
      one.phase = .waitingNodes ∧ one.execution.waitingExecution.keys = ["merge"] ∧
      IsTaken env one.execution "merge" ∧ two.execution.waitingExecution.entries = [] ∧
      three.execution.waitingExecution.entries = [] :=
    ⟨_, _, _, _, rfl, rfl, rfl, rfl,
      ⟨(fun ended => by cases ended.1), (fun ended => by cases ended.2), (fun ended => by cases ended.1),
        ⟨rfl, rfl⟩, by decide⟩, rfl, rfl, ⟨merge, 0, _, _, rfl, rfl, rfl, rfl, rfl, rfl⟩, rfl, rfl⟩
  obtain ⟨one, two, three, four, first, second, third, fourth, ends, phase, waiting, isTaken, noneTwo,
    noneThree⟩ := steps
  have looks : LeavesNone env .nothing one := by
    intro waits
    obtain ⟨nodeName, key, eligible⟩ := waits
    obtain ⟨entry, _, _, found, _⟩ := eligible.withItems
    have listed := OrderedMap.has_iff.mp (has_of_get?_row found)
    rw [waiting, List.mem_singleton] at listed
    rw [phase]
    exact fun _ => ⟨nodeName, key, eligible, listed ▸ isTaken⟩
  have run : LoopRun env (LeavesNone env) (startWith [right]) four :=
    (((LoopRun.start.step (fun ended => by cases ended.2) (leavesNone_of_noneWaiting rfl) first).step
      ends.1 looks second).step ends.2.1 (leavesNone_of_noneWaiting noneTwo) third).step ends.2.2.1
        (leavesNone_of_noneWaiting noneThree) fourth
  exact ⟨four, run, ends.2.2.2.1, ends.2.2.2.2,
    noneAbandoned_of_leavesNone (fun isEmpty => by cases isEmpty) run⟩

/-- The left branch hands on its data, then the right one returns `null`. -/
theorem abandoned : ∃ config, LoopRun env (fun _ _ => True) (startWith [left, right]) config ∧
    ¬NoneAbandoned env config := by
  have steps : ∃ one two three,
      step env (.succeeded [.full [10]]) (startWith [left, right]) = .ok one ∧ step env .nothing one = .ok two ∧
      step env .nothing two = .ok three ∧ (¬Ended one ∧ ¬Ended two ∧ Ended three) ∧
      three.destinationReached = false ∧ three.execution.waitingExecution.keys = ["merge"] ∧
      (∃ entry main node, (three.execution.waitingExecution.row "merge").get? 0 = some entry ∧
        entry.get? .main = some main ∧ hasItems main = true ∧ workflow.getNode "merge" = some node ∧
          requirementMet (requiredInputsOf env node) main = true) :=
    ⟨_, _, _, rfl, rfl, rfl, ⟨(fun ended => by cases ended.1), (fun ended => by cases ended.2), ⟨rfl, rfl⟩⟩,
      rfl, rfl, ⟨_, _, merge, rfl, rfl, rfl, rfl, rfl⟩⟩
  obtain ⟨one, two, three, first, second, third, ends, notReached, waiting, withItems⟩ := steps
  have run : LoopRun env (fun _ _ => True) (startWith [left, right]) three :=
    ((LoopRun.start.step (fun ended => by cases ended.2) trivial first).step ends.1 trivial second).step
      ends.2.1 trivial third
  refine ⟨three, run, fun noneAbandoned => noneAbandoned ends.2.2 notReached ⟨"merge", 0, withItems, ?_⟩⟩
  intro other different _ isWaiting
  rw [OrderedMap.has_iff, waiting, List.mem_singleton] at isWaiting
  exact different isWaiting

end TwoBranches

end N8n.Core
