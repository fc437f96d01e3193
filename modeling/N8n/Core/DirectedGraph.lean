import N8n.Library.Traversal
import N8n.Workflow.Workflow

/-! # The directed graph of the partial execution

`packages/core/src/execution-engine/partial-execution-utils/directed-graph.ts`:
one map of nodes by name and one map of connections by key.

`WellFormed` is the invariant of the graphs that `addNode` and `addConnection`
build: both maps are filed under the right keys and every connection joins two
nodes of the graph.
-/

namespace N8n.Core

structure GraphConnection where
  «from» : INode
  «to» : INode
  type : NodeConnectionType := .main
  outputIndex : Nat := 0
  inputIndex : Nat := 0
deriving DecidableEq, Repr

/-- `fromName-outputType-outputIndex-inputIndex-toName` -/
def makeKey (connection : GraphConnection) : String :=
  connection.from.name ++ "-" ++ connection.type.value ++ "-" ++ toString connection.outputIndex
    ++ "-" ++ toString connection.inputIndex ++ "-" ++ connection.to.name

structure DirectedGraph where
  nodes : OrderedMap String INode
  connections : OrderedMap String GraphConnection
deriving DecidableEq

namespace DirectedGraph

def empty : DirectedGraph := ⟨∅, ∅⟩

def hasNode (graph : DirectedGraph) (nodeName : String) : Bool := graph.nodes.has nodeName

def getNodes (graph : DirectedGraph) : OrderedMap String INode := graph.nodes

def getConnections (graph : DirectedGraph) (target : Option INode := none) : List GraphConnection :=
  graph.connections.values.filter fun connection =>
    match target with
    | some node => connection.to = node
    | none => true

def addNode (graph : DirectedGraph) (node : INode) : DirectedGraph :=
  { graph with nodes := graph.nodes.set node.name node }

def addNodes (graph : DirectedGraph) (nodes : List INode) : DirectedGraph :=
  nodes.foldl addNode graph

def addConnection (graph : DirectedGraph) (connection : GraphConnection) :
    Except Thrown DirectedGraph :=
  if graph.nodes.get? connection.from.name ≠ some connection.from then
    .error (.assertionError "fromExists")
  else if graph.nodes.get? connection.to.name ≠ some connection.to then
    .error (.assertionError "toExists")
  else
    .ok { graph with connections := graph.connections.set (makeKey connection) connection }

def addConnections (graph : DirectedGraph) (connections : List GraphConnection) :
    Except Thrown DirectedGraph :=
  connections.foldlM addConnection graph

def getDirectChildConnections (graph : DirectedGraph) (node : INode) :
    Except Thrown (List GraphConnection) :=
  if graph.nodes.get? node.name = some node then
    .ok (graph.connections.values.filter fun connection => connection.from = node)
  else .error (.assertionError "nodeExists")

def getDirectParentConnections (graph : DirectedGraph) (node : INode) :
    Except Thrown (List GraphConnection) :=
  if graph.nodes.get? node.name = some node then
    .ok (graph.connections.values.filter fun connection => connection.to = node)
  else .error (.assertionError "nodeExists")

def getConnection (graph : DirectedGraph) («from» : INode) (outputIndex : Nat)
    (type : NodeConnectionType) (inputIndex : Nat) («to» : INode) : Option GraphConnection :=
  graph.connections.get? (makeKey { «from», outputIndex, type, inputIndex, «to» })

/-- The connections a removed node leaves behind: every parent joined to every child. -/
def bypassConnections (skipConnectionFn : GraphConnection → Bool)
    (incomingConnections outgoingConnections : List GraphConnection) : List GraphConnection :=
  incomingConnections.flatMap fun incomingConnection =>
    if skipConnectionFn incomingConnection then []
    else outgoingConnections.flatMap fun outgoingConnection =>
      if skipConnectionFn outgoingConnection then []
      else [{ incomingConnection with
        «to» := outgoingConnection.to
        inputIndex := outgoingConnection.inputIndex }]

def dropConnectionsOf (graph : DirectedGraph) (node : INode) : OrderedMap String GraphConnection :=
  graph.connections.filterValues fun connection => !(connection.to = node || connection.from = node)

/-- The second component is what the source returns: the new connections, if it was asked to
reconnect. -/
def removeNode (graph : DirectedGraph) (node : INode) (reconnectConnections : Bool)
    (skipConnectionFn : GraphConnection → Bool) :
    Except Thrown (DirectedGraph × Option (List GraphConnection)) :=
  if reconnectConnections then do
    let incomingConnections ← graph.getDirectParentConnections node
    let outgoingConnections ← graph.getDirectChildConnections node
    let newConnections := bypassConnections skipConnectionFn incomingConnections outgoingConnections
    let connections := newConnections.foldl
      (fun connections newConnection => connections.set (makeKey newConnection) newConnection)
      (graph.dropConnectionsOf node)
    .ok ({ nodes := graph.nodes.erase node.name, connections }, some newConnections)
  else
    .ok ({ nodes := graph.nodes.erase node.name, connections := graph.dropConnectionsOf node }, none)

/-- All nodes below `node`; contains `node` itself when it is on a cycle. -/
def getChildren (graph : DirectedGraph) (node : INode) : Except Thrown (List INode) :=
  Traversal.markFrom .rangeError
    (fun current => (graph.getDirectChildConnections current).map fun connections =>
      connections.map (·.to))
    id (graph.nodes.size + 1) node []

/-- All connections above `node`, whatever their type. -/
def getParentConnections (graph : DirectedGraph) (node : INode) :
    Except Thrown (List GraphConnection) :=
  Traversal.markFrom .rangeError graph.getDirectParentConnections (·.from)
    (graph.connections.size + 1) node []

def clone (graph : DirectedGraph) : Except Thrown DirectedGraph :=
  (empty.addNodes graph.getNodes.values).addConnections graph.getConnections

/-! ## Well-formed graphs -/

def Contains (graph : DirectedGraph) (node : INode) : Prop :=
  graph.nodes.get? node.name = some node

instance (graph : DirectedGraph) (node : INode) : Decidable (graph.Contains node) :=
  inferInstanceAs (Decidable (_ = _))

variable {graph : DirectedGraph} {node : INode}

theorem Contains.childConnections (contains : graph.Contains node) :
    graph.getDirectChildConnections node =
      .ok (graph.connections.values.filter fun connection => connection.from = node) :=
  if_pos contains

theorem Contains.eq_of_name {first second : INode} (contains : graph.Contains first)
    (contains' : graph.Contains second) (sameName : first.name = second.name) : first = second := by
  rw [Contains] at contains contains'
  rw [sameName, contains'] at contains
  exact (Option.some.inj contains).symm

/-- A connection of some type leads from `u` to `v`. -/
def LeadsTo (graph : DirectedGraph) (u v : INode) : Prop :=
  ∃ connection ∈ graph.connections.values, connection.from = u ∧ connection.to = v

structure WellFormed (graph : DirectedGraph) : Prop where
  nodeKeys : ∀ entry ∈ graph.nodes.entries, entry.1 = entry.2.name
  connectionKeys : ∀ entry ∈ graph.connections.entries, entry.1 = makeKey entry.2
  fromNode : ∀ connection ∈ graph.connections.values, graph.Contains connection.from
  toNode : ∀ connection ∈ graph.connections.values, graph.Contains connection.to

instance (graph : DirectedGraph) : Decidable graph.WellFormed :=
  decidable_of_iff
    ((∀ entry ∈ graph.nodes.entries, entry.1 = entry.2.name) ∧
      (∀ entry ∈ graph.connections.entries, entry.1 = makeKey entry.2) ∧
      (∀ connection ∈ graph.connections.values, graph.Contains connection.from) ∧
      ∀ connection ∈ graph.connections.values, graph.Contains connection.to)
    ⟨fun ⟨nodeKeys, connectionKeys, fromNode, toNode⟩ => ⟨nodeKeys, connectionKeys, fromNode, toNode⟩,
      fun ⟨nodeKeys, connectionKeys, fromNode, toNode⟩ => ⟨nodeKeys, connectionKeys, fromNode, toNode⟩⟩

/-- The graphs that `addNode`, with a new name, and `addConnection` build. -/
inductive Built : DirectedGraph → Prop where
  | empty : Built empty
  | addNode {graph : DirectedGraph} {node : INode} (built : Built graph)
      (fresh : graph.hasNode node.name = false) : Built (graph.addNode node)
  | addConnection {graph next : DirectedGraph} {connection : GraphConnection} (built : Built graph)
      (added : graph.addConnection connection = .ok next) : Built next

variable {connection : GraphConnection}

theorem addConnection_eq_ok {graph next : DirectedGraph} (added : graph.addConnection connection = .ok next) :
    graph.Contains connection.from ∧ graph.Contains connection.to ∧
      next = { graph with connections := graph.connections.set (makeKey connection) connection } := by
  simp only [addConnection] at added
  split at added
  · cases added
  · split at added
    · cases added
    · rename_i fromExists toExists
      simp only [ne_eq, Decidable.not_not] at fromExists toExists
      cases added
      exact ⟨fromExists, toExists, rfl⟩

theorem addConnection_of_contains (fromExists : graph.Contains connection.from)
    (toExists : graph.Contains connection.to) :
    graph.addConnection connection = .ok
      { graph with connections := graph.connections.set (makeKey connection) connection } := by
  unfold Contains at fromExists toExists
  simp [addConnection, fromExists, toExists]

@[simp] theorem nodes_addNodes (graph : DirectedGraph) (nodes : List INode) :
    (graph.addNodes nodes).nodes = nodes.foldl (fun table node => table.set node.name node) graph.nodes := by
  induction nodes generalizing graph with
  | nil => rfl
  | cons node rest ih => exact ih (graph.addNode node)

@[simp] theorem connections_addNodes (graph : DirectedGraph) (nodes : List INode) :
    (graph.addNodes nodes).connections = graph.connections := by
  induction nodes generalizing graph with
  | nil => rfl
  | cons node rest ih => exact ih (graph.addNode node)

theorem wellFormed_empty : empty.WellFormed := by
  constructor <;> intro _ member <;> cases member

theorem WellFormed.addNode (wellFormed : graph.WellFormed) (fresh : graph.hasNode node.name = false) :
    (graph.addNode node).WellFormed := by
  have keeps : ∀ other, graph.Contains other → (graph.addNode node).Contains other := by
    intro other contains
    by_cases same : other.name = node.name
    · rw [Contains] at contains
      simp [hasNode, OrderedMap.has, ← same, contains] at fresh
    · exact (OrderedMap.get?_set_of_ne graph.nodes node same).trans contains
  refine ⟨?_, wellFormed.connectionKeys, ?_, ?_⟩
  · rintro ⟨name, other⟩ member
    rcases OrderedMap.mem_set.mp member with ⟨rfl, rfl⟩ | ⟨_, old⟩
    · rfl
    · exact wellFormed.nodeKeys _ old
  · exact fun connection member => keeps _ (wellFormed.fromNode connection member)
  · exact fun connection member => keeps _ (wellFormed.toNode connection member)

theorem WellFormed.addConnection {graph next : DirectedGraph} (wellFormed : graph.WellFormed)
    (added : graph.addConnection connection = .ok next) :
    next.WellFormed := by
  obtain ⟨fromExists, toExists, rfl⟩ := addConnection_eq_ok added
  have newOrOld : ∀ other ∈ (graph.connections.set (makeKey connection) connection).values,
      other = connection ∨ other ∈ graph.connections.values := by
    intro other member
    obtain ⟨key, inside⟩ := OrderedMap.mem_values.mp member
    rcases OrderedMap.mem_set.mp inside with ⟨_, rfl⟩ | ⟨_, old⟩
    · exact .inl rfl
    · exact .inr (OrderedMap.mem_values.mpr ⟨key, old⟩)
  refine ⟨wellFormed.nodeKeys, ?_, ?_, ?_⟩
  · rintro ⟨key, other⟩ member
    rcases OrderedMap.mem_set.mp member with ⟨rfl, rfl⟩ | ⟨_, old⟩
    · rfl
    · exact wellFormed.connectionKeys _ old
  · intro other member
    rcases newOrOld other member with rfl | old
    · exact fromExists
    · exact wellFormed.fromNode other old
  · intro other member
    rcases newOrOld other member with rfl | old
    · exact toExists
    · exact wellFormed.toNode other old

theorem WellFormed.nodes_rebuilt (wellFormed : graph.WellFormed) :
    graph.nodes.values.foldl (fun table node => table.set node.name node) ∅ = graph.nodes :=
  OrderedMap.foldl_set_values wellFormed.nodeKeys

theorem WellFormed.mem_entries (wellFormed : graph.WellFormed) (member : connection ∈ graph.connections.values) :
    (makeKey connection, connection) ∈ graph.connections.entries :=
  OrderedMap.mem_entries_of_keyed wellFormed.connectionKeys member

theorem WellFormed.contains_iff (wellFormed : graph.WellFormed) :
    graph.Contains node ↔ node ∈ graph.nodes.values := by
  rw [Contains, OrderedMap.get?_eq_some, OrderedMap.mem_values]
  refine ⟨fun inside => ⟨_, inside⟩, fun ⟨name, inside⟩ => ?_⟩
  have filed : name = node.name := wellFormed.nodeKeys _ inside
  exact filed ▸ inside

theorem WellFormed.names_eq_keys (wellFormed : graph.WellFormed) :
    graph.nodes.values.map INode.name = graph.nodes.keys := by
  rw [OrderedMap.values, OrderedMap.keys, List.map_map]
  exact List.map_congr_left fun entry member => (wellFormed.nodeKeys entry member).symm

theorem WellFormed.eq_of_makeKey (wellFormed : graph.WellFormed) {first second : GraphConnection}
    (firstMember : first ∈ graph.connections.values) (secondMember : second ∈ graph.connections.values)
    (sameKey : makeKey first = makeKey second) :
    first = second :=
  OrderedMap.value_unique (wellFormed.mem_entries firstMember)
    (sameKey ▸ wellFormed.mem_entries secondMember)

theorem WellFormed.copyConnection (wellFormed : graph.WellFormed) {part : DirectedGraph}
    (submap : part.connections.Submap graph.connections) (member : connection ∈ graph.connections.values)
    (fromExists : part.Contains connection.from) (toExists : part.Contains connection.to) :
    ∃ next, part.addConnection connection = .ok next ∧ next.nodes = part.nodes ∧
      next.connections.Submap graph.connections ∧
      ∀ other, other ∈ next.connections.values ↔ other ∈ part.connections.values ∨ other = connection :=
  ⟨_, addConnection_of_contains fromExists toExists, rfl,
    submap.set (wellFormed.mem_entries member),
    fun _ => submap.mem_values_set (wellFormed.mem_entries member)⟩

theorem Built.wellFormed (built : graph.Built) : graph.WellFormed := by
  induction built with
  | empty => exact wellFormed_empty
  | addNode _ fresh ih => exact ih.addNode fresh
  | addConnection _ added ih => exact ih.addConnection added

theorem addConnections_of_contains {graph : DirectedGraph} {connections : List GraphConnection}
    (fromExists : ∀ connection ∈ connections, graph.Contains connection.from)
    (toExists : ∀ connection ∈ connections, graph.Contains connection.to) :
    graph.addConnections connections = .ok { graph with
      connections := connections.foldl
        (fun table connection => table.set (makeKey connection) connection) graph.connections } := by
  induction connections generalizing graph with
  | nil => rfl
  | cons connection rest ih =>
    have added := addConnection_of_contains (fromExists connection List.mem_cons_self)
      (toExists connection List.mem_cons_self)
    rw [addConnections, Loop.foldlM_cons_ok added]
    exact ih (fun other member => fromExists other (List.mem_cons_of_mem _ member))
      (fun other member => toExists other (List.mem_cons_of_mem _ member))

theorem Built.addNodes (built : graph.Built) {nodes : List INode} (distinct : (nodes.map INode.name).Nodup)
    (fresh : ∀ node ∈ nodes, node.name ∉ graph.nodes.keys) : (graph.addNodes nodes).Built := by
  induction nodes generalizing graph with
  | nil => exact built
  | cons node rest ih =>
    simp only [List.map_cons, List.nodup_cons] at distinct
    have isFresh : graph.hasNode node.name = false := by
      rw [← Bool.not_eq_true, hasNode, OrderedMap.has_iff]
      exact fresh node List.mem_cons_self
    refine ih (built.addNode isFresh) distinct.2 fun other member => ?_
    rw [DirectedGraph.addNode, OrderedMap.mem_keys_set]
    rintro (sameName | old)
    · exact distinct.1 (sameName ▸ List.mem_map_of_mem member)
    · exact fresh other (List.mem_cons_of_mem _ member) old

theorem Built.addConnections {graph next : DirectedGraph} (built : graph.Built)
    {connections : List GraphConnection} (added : graph.addConnections connections = .ok next) :
    next.Built :=
  Loop.foldlM_preserves Built (fun _ _ _ _ kept added => kept.addConnection added) built added

theorem WellFormed.clone_eq (wellFormed : graph.WellFormed) :
    graph.clone = .ok graph := by
  have sameNodes : (empty.addNodes graph.getNodes.values).nodes = graph.nodes := by
    rw [nodes_addNodes]; exact wellFormed.nodes_rebuilt
  have contains : ∀ node, graph.Contains node →
      (empty.addNodes graph.getNodes.values).Contains node := by
    intro node member; rwa [Contains, sameNodes]
  have allConnections : graph.getConnections = graph.connections.values := by
    simp [getConnections]
  rw [clone, allConnections, addConnections_of_contains
    (fun connection member => contains _ (wellFormed.fromNode connection member))
    (fun connection member => contains _ (wellFormed.toNode connection member)),
    sameNodes, connections_addNodes]
  have sameConnections := OrderedMap.foldl_set_values wellFormed.connectionKeys
  exact congrArg (fun connections => Except.ok { graph with connections }) sameConnections

/-- `addNode` and `addConnection` build exactly the well-formed graphs. -/
theorem built_iff_wellFormed : graph.Built ↔ graph.WellFormed := by
  refine ⟨Built.wellFormed, fun wellFormed => ?_⟩
  refine Built.addConnections ?_ wellFormed.clone_eq
  refine Built.empty.addNodes ?_ (by simp [empty])
  rw [getNodes, wellFormed.names_eq_keys]
  exact graph.nodes.nodup_keys

end DirectedGraph

end N8n.Core
