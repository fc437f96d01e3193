import Mathlib.Logic.Relation
import N8n.Library.Loop
import N8n.Workflow.Interfaces

/-! # The workflow object

`packages/workflow/src/Workflow.ts`: the node table, the two connection tables
and the walks over them.  A recursion of the source takes a `fuel` argument
that stands for the call stack.
-/

namespace N8n

structure IWorkflowSettings where
  executionOrder : Option String := none
deriving DecidableEq

structure Workflow where
  nodes : OrderedMap String INode
  connectionsBySourceNode : IConnections
  connectionsByDestinationNode : IConnections
  settings : IWorkflowSettings
  /-- The constructor files every node under its name. -/
  nodesKeyed : ∀ entry ∈ nodes.entries, entry.1 = entry.2.name
deriving DecidableEq

/-- Append empty inputs until position `index` exists. -/
def padInputs (inputs : NodeInputConnections) (index : Nat) : NodeInputConnections :=
  inputs ++ List.replicate (index + 1 - inputs.length) (.full [])

def addByDestination (sourceNode : String) (type : NodeConnectionType) (outputIndex : Nat)
    (returnConnection : IConnections) (connectionInfo : IConnection) : IConnections :=
  let nodeConnections := (returnConnection.get? connectionInfo.node).getD ∅
  let inputs := padInputs ((nodeConnections.get? connectionInfo.type).getD []) connectionInfo.index
  let existing := (SparseArray.read inputs connectionInfo.index).getD []
  returnConnection.set connectionInfo.node (nodeConnections.set connectionInfo.type
    (SparseArray.write inputs connectionInfo.index
      (.full (existing ++ [{ node := sourceNode, type := type, index := outputIndex }]))))

def addOutput (sourceNode : String) (type : NodeConnectionType) (returnConnection : IConnections)
    (output : Slot (List IConnection) × Nat) : IConnections :=
  (output.1.getD []).foldl (addByDestination sourceNode type output.2) returnConnection

def addOutputs (sourceNode : String) (returnConnection : IConnections)
    (typed : NodeConnectionType × NodeInputConnections) : IConnections :=
  typed.2.zipIdx.foldl (addOutput sourceNode typed.1) returnConnection

def addSource (returnConnection : IConnections) (source : String × INodeConnections) : IConnections :=
  source.2.entries.foldl (addOutputs source.1) returnConnection

/-- Rewrites the connections by source node into connections by destination node. -/
def getConnectionsByDestination (connections : IConnections) : IConnections :=
  connections.entries.foldl addSource ∅

def HasInput (returnConnection : IConnections) (nodeName : String) (type : NodeConnectionType) (index : Nat) :
    Prop :=
  ∃ inputs, (returnConnection.get? nodeName).bind (·.get? type) = some inputs ∧ index < inputs.length

theorem hasInput_addByDestination_self (sourceNode : String) (type : NodeConnectionType) (outputIndex : Nat)
    (returnConnection : IConnections) (connectionInfo : IConnection) :
    HasInput (addByDestination sourceNode type outputIndex returnConnection connectionInfo)
      connectionInfo.node connectionInfo.type connectionInfo.index := by
  refine ⟨_, by rw [addByDestination, OrderedMap.get?_set_self, Option.bind_some, OrderedMap.get?_set_self], ?_⟩
  rw [SparseArray.length_write]
  omega

theorem HasInput.addByDestination {returnConnection : IConnections} {nodeName : String}
    {inputType : NodeConnectionType} {index : Nat} (present : HasInput returnConnection nodeName inputType index)
    (sourceNode : String) (type : NodeConnectionType) (outputIndex : Nat) (connectionInfo : IConnection) :
    HasInput (addByDestination sourceNode type outputIndex returnConnection connectionInfo) nodeName
      inputType index := by
  obtain ⟨inputs, found, within⟩ := present
  obtain ⟨nodeConnections, listed, typed⟩ := Option.bind_eq_some_iff.mp found
  rw [HasInput, N8n.addByDestination]
  by_cases sameNode : nodeName = connectionInfo.node
  · subst sameNode
    rw [OrderedMap.get?_set_self, Option.bind_some, listed, Option.getD_some]
    by_cases sameType : inputType = connectionInfo.type
    · subst sameType
      refine ⟨_, OrderedMap.get?_set_self _ _ _, ?_⟩
      rw [SparseArray.length_write, typed, Option.getD_some, padInputs, List.length_append]
      omega
    · exact ⟨inputs, by rw [OrderedMap.get?_set_of_ne _ _ sameType, typed], within⟩
  · exact ⟨inputs, by rw [OrderedMap.get?_set_of_ne _ _ sameNode, found], within⟩

theorem hasInput_getConnectionsByDestination {connections : IConnections} {sourceNode : String}
    {nodeConnections : INodeConnections} {type : NodeConnectionType} {outputs : NodeInputConnections}
    {slot : Slot (List IConnection)} {outputIndex : Nat} {connectionInfo : IConnection}
    (listed : (sourceNode, nodeConnections) ∈ connections.entries)
    (typed : (type, outputs) ∈ nodeConnections.entries) (placed : (slot, outputIndex) ∈ outputs.zipIdx)
    (member : connectionInfo ∈ slot.getD []) : HasInput (getConnectionsByDestination connections)
      connectionInfo.node connectionInfo.type connectionInfo.index := by
  let present (table : IConnections) : Prop :=
    HasInput table connectionInfo.node connectionInfo.type connectionInfo.index
  have keepsOutput : ∀ sourceNode type output table, present table →
      present (addOutput sourceNode type table output) := fun sourceNode type output table holds =>
    Loop.foldl_preserves present (fun _ _ _ kept => kept.addByDestination _ _ _ _) holds
  have keepsOutputs : ∀ sourceNode typed table, present table → present (addOutputs sourceNode table typed) :=
    fun sourceNode typed table holds =>
      Loop.foldl_preserves present (fun output _ table => keepsOutput sourceNode typed.1 output table) holds
  have keepsSource : ∀ source table, present table → present (addSource table source) :=
    fun source table holds =>
      Loop.foldl_preserves present (fun typed _ table => keepsOutputs source.1 typed table) holds
  -- the turns that lead to the connection, from the inside out
  have inOutput : ∀ table, present (addOutput sourceNode type table (slot, outputIndex)) :=
    Loop.foldl_establishes present (fun _ _ _ kept => kept.addByDestination _ _ _ _)
      ⟨connectionInfo, member, fun _ => hasInput_addByDestination_self _ _ _ _ _⟩
  have inOutputs : ∀ table, present (addOutputs sourceNode table (type, outputs)) :=
    Loop.foldl_establishes present (fun output _ table => keepsOutput sourceNode type output table)
      ⟨(slot, outputIndex), placed, inOutput⟩
  have inSource : ∀ table, present (addSource table (sourceNode, nodeConnections)) :=
    Loop.foldl_establishes present (fun typed _ table => keepsOutputs sourceNode typed table)
      ⟨(type, outputs), typed, inOutputs⟩
  exact Loop.foldl_establishes present (fun source _ table => keepsSource source table)
    ⟨(sourceNode, nodeConnections), listed, inSource⟩ ∅

/-- The constructor.  Adding the default parameters to the nodes is left out. -/
def Workflow.new (nodes : List INode) (connections : IConnections) (settings : IWorkflowSettings) :
    Workflow where
  nodes := nodes.foldl (fun table node => table.set node.name node) ∅
  connectionsBySourceNode := connections
  connectionsByDestinationNode := getConnectionsByDestination connections
  settings := settings
  nodesKeyed := OrderedMap.keyed_foldl_set nodes (by simp)

/-- Puts `addNodes` in front, each name once. -/
def mergeParents (returnNodes addNodes : List String) : List String :=
  addNodes.foldr (fun parentNodeName returnNodes => parentNodeName :: returnNodes.erase parentNodeName)
    returnNodes

/-- With unlimited depth and one connection type. -/
def getConnectedNodes (connections : IConnections) (connectionType : NodeConnectionType) :
    Nat → String → List String → List String
  | 0, _, _ => []
  | fuel + 1, nodeName, checkedNodesIncoming =>
    match (connections.get? nodeName).bind (·.get? connectionType) with
    | none => []
    | some connectionsByIndex =>
      if nodeName ∈ checkedNodesIncoming then []
      else
        let checkedNodes := checkedNodesIncoming ++ [nodeName]
        (connectionsByIndex.flatMap (·.getD [])).foldl (fun returnNodes connection =>
          if connection.node ∈ checkedNodes then returnNodes
          else mergeParents (connection.node :: returnNodes)
            (getConnectedNodes connections connectionType fuel connection.node checkedNodes)) []

namespace Workflow

def getNode (workflow : Workflow) (nodeName : String) : Option INode := workflow.nodes.get? nodeName

variable {workflow : Workflow}

theorem name_of_getNode {nodeName : String} {node : INode} (found : workflow.getNode nodeName = some node) :
    node.name = nodeName :=
  (workflow.nodesKeyed _ (OrderedMap.get?_eq_some.mp found)).symm

/-- The recursion goes through different nodes with inputs, so it is at most one deeper than there
are such nodes. -/
def getParentNodes (workflow : Workflow) (nodeName : String) : List String :=
  getConnectedNodes workflow.connectionsByDestinationNode .main
    (workflow.connectionsByDestinationNode.size + 1) nodeName []

/-- With the checked nodes of the caller, which the recursion adds to. -/
def getHighestNodeFrom (workflow : Workflow) (type : NodeConnectionType) : Nat → String → Option Nat →
    List String → Except Thrown (List String × List String)
  | 0, _, _, _ => .error .rangeError
  | fuel + 1, nodeName, nodeConnectionIndex, checkedNodes =>
    match workflow.getNode nodeName with
    | none => .error (.typeError "Cannot read properties of undefined (reading 'disabled')")
    | some node =>
      let currentHighest := if node.disabled = some false then [nodeName] else []
      match (workflow.connectionsByDestinationNode.get? nodeName).bind (·.get? type) with
      | none => .ok (currentHighest, checkedNodes)
      | some inputs =>
        if nodeName ∈ checkedNodes then .ok (currentHighest, checkedNodes)
        else
          let connections : List IConnection :=
            match nodeConnectionIndex with
            | some index => (SparseArray.read inputs index).getD []
            | none => inputs.flatMap (·.getD [])
          connections.foldlM (fun (returnNodes, checkedNodes) connection =>
            if connection.node ∈ checkedNodes then .ok (returnNodes, checkedNodes)
            else do
              let (addNodes, checkedNodes) ←
                getHighestNodeFrom workflow type fuel connection.node none checkedNodes
              -- without further parents the node itself is added, unless it is disabled
              let isDisabled := ((workflow.getNode connection.node).map (·.isDisabled)).getD false
              let addNodes := if addNodes.isEmpty && !isDisabled then [connection.node] else addNodes
              .ok (addNodes.foldl (fun returnNodes name =>
                if name ∈ returnNodes then returnNodes else returnNodes ++ [name]) returnNodes, checkedNodes))
            ([], checkedNodes ++ [nodeName])

def getHighestNode (workflow : Workflow) (nodeName : String) (type : NodeConnectionType)
    (nodeConnectionIndex : Option Nat) : Except Thrown (List String) :=
  (getHighestNodeFrom workflow type (workflow.connectionsByDestinationNode.size + 2) nodeName
    nodeConnectionIndex []).map (·.1)

/-- The main inputs of a node, as `connectionsByDestinationNode[nodeName].main` holds them. -/
def mainInputs (workflow : Workflow) (nodeName : String) : Except Thrown NodeInputConnections :=
  match workflow.connectionsByDestinationNode.get? nodeName with
  | none => .error (.typeError "Cannot read properties of undefined (reading 'main')")
  | some nodeConnections =>
    match nodeConnections.get? .main with
    | none => .error (.typeError "Cannot read properties of undefined")
    | some main => .ok main

theorem mainInputs_of_hasInput {nodeName : String} {index : Nat}
    (present : HasInput workflow.connectionsByDestinationNode nodeName .main index) :
    ∃ inputs, workflow.mainInputs nodeName = .ok inputs ∧ index < inputs.length := by
  obtain ⟨inputs, found, within⟩ := present
  obtain ⟨nodeConnections, listed, typed⟩ := Option.bind_eq_some_iff.mp found
  exact ⟨inputs, by rw [mainInputs, listed]; simp only [typed], within⟩

/-! ## The nodes above a node -/

/-- `parent` is connected to a main input of `child`. -/
def Feeds (workflow : Workflow) (parent child : String) : Prop :=
  ∃ main, (workflow.connectionsByDestinationNode.get? child).bind (·.get? .main) = some main ∧
    ∃ connection ∈ main.flatMap (·.getD []), connection.node = parent

theorem mem_mergeParents {returnNodes addNodes : List String} {name : String}
    (member : name ∈ mergeParents returnNodes addNodes) : name ∈ returnNodes ∨ name ∈ addNodes := by
  induction addNodes with
  | nil => exact .inl member
  | cons parentNodeName rest ih =>
    cases List.mem_cons.mp member with
    | inl isFirst => exact .inr (isFirst ▸ List.mem_cons_self)
    | inr further =>
      cases ih (List.mem_of_mem_erase further) with
      | inl old => exact .inl old
      | inr inRest => exact .inr (List.mem_cons_of_mem _ inRest)

/-- What the recursion returns lies above the node and has not been checked before. -/
theorem getConnectedNodes_sound (fuel : Nat) : ∀ nodeName checkedNodes name,
    name ∈ getConnectedNodes workflow.connectionsByDestinationNode .main fuel nodeName checkedNodes →
      Relation.TransGen workflow.Feeds name nodeName ∧ name ∉ checkedNodes ∧ name ≠ nodeName := by
  induction fuel with
  | zero => intro _ _ _ member; cases member
  | succ fuel ih =>
    intro nodeName checkedNodes name member
    rw [getConnectedNodes] at member
    split at member
    · cases member
    rename_i connectionsByIndex found
    split at member
    · cases member
    -- the loop over part of the connections
    have loop : ∀ (connections : List IConnection) (returnNodes : List String),
        (∀ connection ∈ connections, connection ∈ connectionsByIndex.flatMap (·.getD [])) →
        (∀ name ∈ returnNodes, Relation.TransGen workflow.Feeds name nodeName ∧
          name ∉ checkedNodes ∧ name ≠ nodeName) →
        ∀ name ∈ connections.foldl (fun returnNodes connection =>
          if connection.node ∈ checkedNodes ++ [nodeName] then returnNodes
          else mergeParents (connection.node :: returnNodes) (getConnectedNodes
            workflow.connectionsByDestinationNode .main fuel connection.node (checkedNodes ++ [nodeName])))
          returnNodes, Relation.TransGen workflow.Feeds name nodeName ∧ name ∉ checkedNodes ∧ name ≠ nodeName := by
      intro connections
      induction connections with
      | nil => exact fun _ _ sound => sound
      | cons connection rest loop =>
        intro returnNodes listed sound
        refine loop _ (fun other inside => listed other (List.mem_cons_of_mem _ inside)) ?_
        intro name inside
        dsimp only at inside
        split at inside
        · exact sound name inside
        rename_i unchecked
        have feeds : workflow.Feeds connection.node nodeName :=
          ⟨connectionsByIndex, found, connection, listed connection List.mem_cons_self, rfl⟩
        simp only [List.mem_append, List.mem_singleton, not_or] at unchecked
        cases mem_mergeParents inside with
        | inl old =>
          cases List.mem_cons.mp old with
          | inl isNode => exact isNode ▸ ⟨.single feeds, unchecked⟩
          | inr older => exact sound name older
        | inr above =>
          obtain ⟨path, notChecked, _⟩ := ih _ _ _ above
          simp only [List.mem_append, List.mem_singleton, not_or] at notChecked
          exact ⟨path.tail feeds, notChecked⟩
    exact loop _ [] (fun _ inside => inside) (by simp) name member

theorem getParentNodes_sound {nodeName name : String} (member : name ∈ workflow.getParentNodes nodeName) :
    Relation.TransGen workflow.Feeds name nodeName ∧ name ≠ nodeName := by
  obtain ⟨path, _, different⟩ := getConnectedNodes_sound _ nodeName [] name member
  exact ⟨path, different⟩

end Workflow

end N8n
