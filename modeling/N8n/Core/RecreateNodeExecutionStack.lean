import N8n.Core.AddNodeToBeExecuted
import N8n.Core.GetSourceDataGroups

/-! # Recreating the state of an execution

`recreateNodeExecutionStack` of
`packages/core/src/execution-engine/partial-execution-utils/recreate-node-execution-stack.ts`
with `get-incoming-data.ts`: the stack and the waiting entries that the engine
starts a partial execution from.
-/

namespace N8n.Core

variable {Item : Type}

/-! ## Incoming data -/

/-- `runData[nodeName]?.at(runIndex)`, given as `run`. -/
def getIncomingData (run : Option (ITaskData Item)) (connectionType : NodeConnectionType)
    (outputIndex : Nat) : Except Thrown (Option (List Item)) :=
  match run.bind (·.data) with
  | none => .ok none
  | some data =>
    match data.get? connectionType with
    | none => .error (.typeError "Cannot read properties of undefined (reading 'at')")
    | some outputs => .ok (SparseArray.read outputs outputIndex).toOption

structure IncomingData (Item : Type) where
  data : List Item
  runIndex : Nat

/-- The runs from `runIndex` on. -/
def incomingDataFrom (connectionType : NodeConnectionType) (outputIndex : Nat) :
    Nat → List (ITaskData Item) → Except Thrown (Option (IncomingData Item))
  | _, [] => .ok none
  | runIndex, run :: rest => do
    match ← getIncomingData (some run) connectionType outputIndex with
    | some (item :: items) => .ok (some ⟨item :: items, runIndex⟩)
    | _ => incomingDataFrom connectionType outputIndex (runIndex + 1) rest

def getIncomingDataFromAnyRun (runData : IRunData Item) (nodeName : String)
    (connectionType : NodeConnectionType) (outputIndex : Nat) : Except Thrown (Option (IncomingData Item)) :=
  incomingDataFrom connectionType outputIndex 0 ((runData.get? nodeName).getD [])

/-! ## Waiting entries -/

/-- `table[nodeName][runIndex][inputType][inputIndex] = slot`, creating the levels that are missing. -/
def addToTable {α : Type}
    (table : OrderedMap String (OrderedMap Nat (OrderedMap NodeConnectionType (List (Slot α)))))
    (nodeName : String) (runIndex : Nat) (inputType : NodeConnectionType) (inputIndex : Nat) (slot : Slot α) :
    OrderedMap String (OrderedMap Nat (OrderedMap NodeConnectionType (List (Slot α)))) :=
  let taskDataConnections := ((table.row nodeName).get? runIndex).getD ∅
  let dataList := (taskDataConnections.get? inputType).getD []
  table.set nodeName ((table.row nodeName).set runIndex
    (taskDataConnections.set inputType (SparseArray.write dataList inputIndex slot)))

def addWaitingExecution (waitingExecution : IWaitingForExecution Item) (nodeName : String) (runIndex : Nat)
    (inputType : NodeConnectionType) (inputIndex : Nat) (executionData : Slot (List Item)) :
    IWaitingForExecution Item :=
  addToTable waitingExecution nodeName runIndex inputType inputIndex executionData

def addWaitingExecutionSource (waitingExecutionSource : IWaitingForExecutionSource) (nodeName : String)
    (runIndex : Nat) (inputType : NodeConnectionType) (inputIndex : Nat) (sourceData : Slot ISourceData) :
    IWaitingForExecutionSource :=
  addToTable waitingExecutionSource nodeName runIndex inputType inputIndex sourceData

/-! ## The function -/

def disabledMessage (nodeName : String) : String :=
  "Graph contains disabled nodes. This is not supported. Make sure to pass the graph through " ++
    "\"findSubgraph\" before calling \"recreateNodeExecutionStack\". The node in question is \"" ++
      nodeName ++ "\""

def noDataMessage (incomingConnection : GraphConnection) (startNode : INode) : String :=
  "Start node(" ++ incomingConnection.to.name ++ ") has an incoming connection with no run or pinned data. " ++
    "This is not supported. The connection in question is \"" ++ incomingConnection.from.name ++ "->" ++
      startNode.name ++ "\". Are you sure the start nodes come from the \"findStartNodes\" function?"

structure Collected (Item : Type) where
  incomingData : List (Slot (List Item))
  incomingSourceData : List (Slot ISourceData)

/-- One connection of a complete group. -/
def collectIncoming (runData : IRunData Item) (pinData : IPinData Item) (startNode : INode)
    (collected : Collected Item) (incomingConnection : GraphConnection) :
    Except Thrown (Collected Item) := do
  let sourceNode := incomingConnection.from
  let source (runIndex : Nat) : Slot ISourceData :=
    .full ⟨sourceNode.name, some incomingConnection.outputIndex, some runIndex⟩
  match pinData.get? sourceNode.name with
  | some pinned =>
    .ok ⟨collected.incomingData ++ [.full pinned], collected.incomingSourceData ++ [source 0]⟩
  | none =>
    if runData.has sourceNode.name then
      match ← getIncomingDataFromAnyRun runData sourceNode.name incomingConnection.type
        incomingConnection.outputIndex with
      | some nodeIncomingData =>
        .ok ⟨collected.incomingData ++ [.full nodeIncomingData.data],
          collected.incomingSourceData ++ [source nodeIncomingData.runIndex]⟩
      | none => .ok ⟨collected.incomingData, collected.incomingSourceData ++ [source 0]⟩
    else .error (.assertionError (noDataMessage incomingConnection startNode))

/-- One connection of an incomplete group. -/
def addIncoming (runData : IRunData Item) (nodeName : String) (nextRunIndex : Nat)
    (state : ExecutionState Item) (incomingConnection : GraphConnection) :
    Except Thrown (ExecutionState Item) := do
  match ← getIncomingDataFromAnyRun runData incomingConnection.from.name incomingConnection.type
    incomingConnection.outputIndex with
  | some nodeIncomingData =>
    .ok { state with
      waitingExecution := addWaitingExecution state.waitingExecution nodeName nextRunIndex
        incomingConnection.type incomingConnection.inputIndex (.full nodeIncomingData.data)
      waitingExecutionSource := addWaitingExecutionSource state.waitingExecutionSource nodeName nextRunIndex
        incomingConnection.type incomingConnection.inputIndex
        (.full ⟨incomingConnection.from.name, some incomingConnection.outputIndex, some nextRunIndex⟩) }
  | none => .ok state

def addGroup (runData : IRunData Item) (pinData : IPinData Item) (startNode : INode)
    (state : ExecutionState Item) (sourceData : SourceConnectionGroup) :
    Except Thrown (ExecutionState Item) :=
  if sourceData.complete then do
    let collected ← sourceData.connections.foldlM (collectIncoming runData pinData startNode) ⟨[], []⟩
    .ok { state with nodeExecutionStack := state.nodeExecutionStack ++ [{
      node := some startNode
      data := onlyMain collected.incomingData
      source := some (onlyMain collected.incomingSourceData) }] }
  else
    let nextRunIndex := (state.waitingExecution.row startNode.name).size
    sourceData.connections.foldlM (addIncoming runData startNode.name nextRunIndex) state

def addStartNode (localeCompare : String → String → Ordering) [Inhabited Item] (graph : DirectedGraph)
    (runData : IRunData Item) (pinData : IPinData Item) (state : ExecutionState Item) (startNode : INode) :
    Except Thrown (ExecutionState Item) := do
  let parentConnections ← graph.getDirectParentConnections startNode
  if (parentConnections.filter (·.type = .main)).isEmpty then
    .ok { state with nodeExecutionStack := state.nodeExecutionStack ++ [{
      node := some startNode
      data := onlyMain [.full [default]]
      source := none }] }
  else
    (getSourceDataGroups localeCompare graph startNode runData pinData).foldlM
      (addGroup runData pinData startNode) state

def recreateNodeExecutionStack (localeCompare : String → String → Ordering) [Inhabited Item]
    (graph : DirectedGraph) (startNodes : List INode) (runData : IRunData Item) (pinData : IPinData Item) :
    Except Thrown (ExecutionState Item) :=
  match graph.getNodes.values.find? (·.isDisabled) with
  | some node => .error (.assertionError (disabledMessage node.name))
  | none => startNodes.foldlM (addStartNode localeCompare graph runData pinData) ⟨[], ∅, ∅⟩

end N8n.Core
