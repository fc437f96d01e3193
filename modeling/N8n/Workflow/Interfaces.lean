import N8n.Library.OrderedMap
import N8n.Library.SparseArray

/-! # The shared data types of a workflow

Nodes, connections and the per-node data an execution carries, as declared in
`packages/workflow/src/Interfaces.ts`.  The item type of the data is a
parameter.  Fields no modelled function reads are left out.
-/

namespace N8n

/-- What a modelled function throws instead of returning. -/
inductive Thrown where
  | assertionError (message : String)
  | typeError (message : String)
  | applicationError (message : String)
  | rangeError
deriving DecidableEq, Repr

inductive NodeConnectionType where
  | aiAgent
  | aiChain
  | aiDocument
  | aiEmbedding
  | aiLanguageModel
  | aiMemory
  | aiOutputParser
  | aiRetriever
  | aiTextSplitter
  | aiTool
  | aiVectorStore
  | main
deriving DecidableEq, Repr

/-- The string the enumeration member stands for. -/
def NodeConnectionType.value : NodeConnectionType → String
  | .aiAgent => "ai_agent"
  | .aiChain => "ai_chain"
  | .aiDocument => "ai_document"
  | .aiEmbedding => "ai_embedding"
  | .aiLanguageModel => "ai_languageModel"
  | .aiMemory => "ai_memory"
  | .aiOutputParser => "ai_outputParser"
  | .aiRetriever => "ai_retriever"
  | .aiTextSplitter => "ai_textSplitter"
  | .aiTool => "ai_tool"
  | .aiVectorStore => "ai_vectorStore"
  | .main => "main"

inductive OnError where
  | continueErrorOutput
  | continueRegularOutput
  | stopWorkflow
deriving DecidableEq, Repr

/-- A node.  Object identity of the source is equality here. -/
structure INode where
  id : String
  name : String
  type : String
  position : Int × Int := (0, 0)
  disabled : Option Bool := none
  retryOnFail : Option Bool := none
  maxTries : Option Nat := none
  alwaysOutputData : Option Bool := none
  executeOnce : Option Bool := none
  onError : Option OnError := none
  continueOnFail : Option Bool := none
deriving DecidableEq, Repr

/-- `node.disabled === true`. -/
def INode.isDisabled (node : INode) : Bool := node.disabled = some true

structure IConnection where
  node : String
  type : NodeConnectionType
  index : Nat
deriving DecidableEq, Repr

/-- The connections of each output or input; a slot may be `null` or missing. -/
abbrev NodeInputConnections := List (Slot (List IConnection))

abbrev INodeConnections := OrderedMap NodeConnectionType NodeInputConnections

abbrev IConnections := OrderedMap String INodeConnections

structure ISourceData where
  previousNode : String
  /-- If undefined `0` gets used. -/
  previousNodeOutput : Option Nat
  /-- If undefined `0` gets used. -/
  previousNodeRun : Option Nat
deriving DecidableEq, Repr

abbrev ITaskDataConnections (Item : Type) := OrderedMap NodeConnectionType (List (Slot (List Item)))

abbrev ITaskDataConnectionsSource := OrderedMap NodeConnectionType (List (Slot ISourceData))

/-- The partially delivered inputs of waiting nodes, by node name and run index. -/
abbrev IWaitingForExecution (Item : Type) := OrderedMap String (OrderedMap Nat (ITaskDataConnections Item))

abbrev IWaitingForExecutionSource := OrderedMap String (OrderedMap Nat ITaskDataConnectionsSource)

structure IExecuteData (Item : Type) where
  /-- Missing when the workflow has no node of that name; the source casts it away. -/
  node : Option INode
  data : ITaskDataConnections Item
  source : Option ITaskDataConnectionsSource
deriving DecidableEq

/-- One run of a node; `data` is missing when the run failed. -/
structure ITaskData (Item : Type) where
  data : Option (ITaskDataConnections Item)

abbrev IRunData (Item : Type) := OrderedMap String (List (ITaskData Item))

abbrev IPinData (Item : Type) := OrderedMap String (List Item)

inductive WorkflowExecuteMode where
  | cli
  | error
  | integrated
  | internal
  | manual
  | retry
  | trigger
  | webhook
  | evaluation
deriving DecidableEq, Repr

end N8n
