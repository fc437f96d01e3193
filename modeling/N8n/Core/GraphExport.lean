import N8n.Core.DirectedGraph

/-! # Export to and import from a workflow

`toIConnections`, `toWorkflow` and `fromWorkflow` of `directed-graph.ts`.  The
export writes one connection at a time into the nested table by source node and
creates the missing levels on the way, except the level of a second connection
type.  `groupAt` reads the table back without its levels, so that each write is
one equation.
-/

namespace N8n.Core

def exportedConnection (connection : GraphConnection) : IConnection where
  node := connection.to.name
  type := connection.type
  index := connection.inputIndex

/-- One turn of the loop of `toIConnections`. -/
def addIConnection (result : IConnections) (connection : GraphConnection) :
    Except Thrown IConnections :=
  let resultConnection :=
    (result.get? connection.from.name).getD ((∅ : INodeConnections).set connection.type [])
  match resultConnection.get? connection.type with
  | none => .error (.typeError "Cannot read properties of undefined")
  | some outputs =>
    let group := (SparseArray.read outputs connection.outputIndex).getD []
    .ok (result.set connection.from.name (resultConnection.set connection.type
      (SparseArray.write outputs connection.outputIndex
        (.full (group ++ [exportedConnection connection])))))

namespace DirectedGraph

def toIConnections (graph : DirectedGraph) : Except Thrown IConnections :=
  graph.connections.values.foldlM addIConnection ∅

def toWorkflow (graph : DirectedGraph) (settings : IWorkflowSettings) : Except Thrown Workflow :=
  graph.toIConnections.map fun connections => Workflow.new graph.nodes.values connections settings

/-- One turn of the innermost loop of `fromWorkflow`. -/
def importConnection (workflow : Workflow) (source : INode) (outputType : NodeConnectionType)
    (outputIndex : Nat) (graph : DirectedGraph) (conn : IConnection) : Except Thrown DirectedGraph :=
  match workflow.getNode conn.node with
  | none => .error (.assertionError "to")
  | some target => graph.addConnection ⟨source, target, outputType, outputIndex, conn.index⟩

def importOutput (workflow : Workflow) (source : INode) (outputType : NodeConnectionType)
    (graph : DirectedGraph) (output : Slot (List IConnection) × Nat) : Except Thrown DirectedGraph :=
  (output.1.getD []).foldlM (importConnection workflow source outputType output.2) graph

def importOutputs (workflow : Workflow) (source : INode) (graph : DirectedGraph)
    (typed : NodeConnectionType × NodeInputConnections) : Except Thrown DirectedGraph :=
  typed.2.zipIdx.foldlM (importOutput workflow source typed.1) graph

/-- One turn of the outermost loop of `fromWorkflow`. -/
def importNode (workflow : Workflow) (graph : DirectedGraph) (entry : String × INodeConnections) :
    Except Thrown DirectedGraph :=
  match workflow.getNode entry.1 with
  | none => .error (.assertionError "from")
  | some source => entry.2.entries.foldlM (importOutputs workflow source) graph

def fromWorkflow (workflow : Workflow) : Except Thrown DirectedGraph :=
  workflow.connectionsBySourceNode.entries.foldlM (importNode workflow)
    (empty.addNodes workflow.nodes.values)

end DirectedGraph

/-! ## Reading the nested table -/

def groupAt (connections : IConnections) (nodeName : String) (type : NodeConnectionType)
    (index : Nat) : List IConnection :=
  (SparseArray.read (((connections.get? nodeName).bind (·.get? type)).getD []) index).getD []

variable {result next : IConnections} {connection : GraphConnection}

theorem addIConnection_eq_ok (added : addIConnection result connection = .ok next) :
    ∃ outputs, ((result.get? connection.from.name).getD
        ((∅ : INodeConnections).set connection.type [])).get? connection.type = some outputs ∧
      next = result.set connection.from.name
        (((result.get? connection.from.name).getD
          ((∅ : INodeConnections).set connection.type [])).set connection.type
          (SparseArray.write outputs connection.outputIndex
            (.full ((SparseArray.read outputs connection.outputIndex).getD [] ++
              [exportedConnection connection])))) := by
  simp only [addIConnection] at added
  split at added
  · cases added
  · rename_i outputs found
    exact ⟨outputs, found, (Except.ok.inj added).symm⟩

theorem groupAt_addIConnection (added : addIConnection result connection = .ok next) (nodeName : String)
    (type : NodeConnectionType) (index : Nat) :
    groupAt next nodeName type index =
      if nodeName = connection.from.name ∧ type = connection.type ∧ index = connection.outputIndex
      then groupAt result nodeName type index ++ [exportedConnection connection]
      else groupAt result nodeName type index := by
  obtain ⟨outputs, found, rfl⟩ := addIConnection_eq_ok added
  by_cases sameNode : nodeName = connection.from.name
  · subst sameNode
    cases known : result.get? connection.from.name with
    | none =>
      simp only [known, Option.getD_none, OrderedMap.get?_set_self, Option.some.injEq] at found
      subst found
      by_cases sameType : type = connection.type
      · subst sameType
        by_cases sameIndex : index = connection.outputIndex
        · simp [groupAt, known, sameIndex]
        · simp [groupAt, known, sameIndex, SparseArray.read_write_of_ne _ _ sameIndex]
      · simp [groupAt, known, sameType, OrderedMap.get?_set_of_ne _ _ sameType]
    | some nodeConnections =>
      simp only [known, Option.getD_some] at found
      by_cases sameType : type = connection.type
      · subst sameType
        by_cases sameIndex : index = connection.outputIndex
        · simp [groupAt, known, found, sameIndex]
        · simp [groupAt, known, found, sameIndex, SparseArray.read_write_of_ne _ _ sameIndex]
      · simp [groupAt, known, sameType, OrderedMap.get?_set_of_ne _ _ sameType]
  · simp [groupAt, sameNode, OrderedMap.get?_set_of_ne _ _ sameNode]

/-- `connection`, in the place `toIConnections` files it under. -/
structure FiledAt (nodeName : String) (type : NodeConnectionType) (index : Nat)
    (exported : IConnection) (connection : GraphConnection) : Prop where
  nodeName : nodeName = connection.from.name
  type : type = connection.type
  index : index = connection.outputIndex
  exported : exported = exportedConnection connection

theorem FiledAt.makeKey_eq {nodeName : String} {type : NodeConnectionType} {index : Nat}
    {exported : IConnection} {first second : GraphConnection}
    (firstFiled : FiledAt nodeName type index exported first)
    (secondFiled : FiledAt nodeName type index exported second) : makeKey first = makeKey second := by
  have sameEntry := firstFiled.exported.symm.trans secondFiled.exported
  have sameTarget : first.to.name = second.to.name := congrArg IConnection.node sameEntry
  have sameInput : first.inputIndex = second.inputIndex := congrArg IConnection.index sameEntry
  rw [makeKey, makeKey, ← firstFiled.nodeName, ← secondFiled.nodeName, ← firstFiled.type,
    ← secondFiled.type, ← firstFiled.index, ← secondFiled.index, sameTarget, sameInput]

theorem mem_groupAt_addIConnection (added : addIConnection result connection = .ok next) (nodeName : String)
    (type : NodeConnectionType) (index : Nat) (exported : IConnection) :
    exported ∈ groupAt next nodeName type index ↔
      exported ∈ groupAt result nodeName type index ∨
        FiledAt nodeName type index exported connection := by
  rw [groupAt_addIConnection added]
  split
  · rename_i place
    rw [List.mem_append, List.mem_singleton]
    refine or_congr_right ⟨fun equal => ⟨place.1, place.2.1, place.2.2, equal⟩, (·.exported)⟩
  · rename_i elsewhere
    refine ⟨.inl, fun either => either.elim id fun filed => ?_⟩
    exact absurd ⟨filed.nodeName, filed.type, filed.index⟩ elsewhere

/-! ## When the export succeeds -/

def DirectedGraph.SingleTyped (graph : DirectedGraph) : Prop :=
  ∀ first ∈ graph.connections.values, ∀ second ∈ graph.connections.values,
    first.from.name = second.from.name → first.type = second.type

instance (graph : DirectedGraph) : Decidable graph.SingleTyped :=
  inferInstanceAs (Decidable (∀ first ∈ graph.connections.values, ∀ second ∈ graph.connections.values,
    first.from.name = second.from.name → first.type = second.type))

/-- Every node of the table lists one type, that of the connections leaving it. -/
def TypesCovered (connections : List GraphConnection) (result : IConnections) : Prop :=
  ∀ nodeName nodeConnections, result.get? nodeName = some nodeConnections →
    ∀ connection ∈ connections, connection.from.name = nodeName →
      (nodeConnections.get? connection.type).isSome

theorem typesCovered_empty (connections : List GraphConnection) : TypesCovered connections ∅ := by
  intro nodeName nodeConnections listed
  simp at listed

theorem addIConnection_returns {connections : List GraphConnection}
    (singleTyped : ∀ first ∈ connections, ∀ second ∈ connections,
      first.from.name = second.from.name → first.type = second.type) (member : connection ∈ connections)
    {result : IConnections} (covered : TypesCovered connections result) :
    ∃ next, addIConnection result connection = .ok next ∧ TypesCovered connections next := by
  have present : (((result.get? connection.from.name).getD
      ((∅ : INodeConnections).set connection.type [])).get? connection.type).isSome := by
    cases known : result.get? connection.from.name with
    | none => simp
    | some nodeConnections => exact covered _ _ known connection member rfl
  obtain ⟨outputs, found⟩ := Option.isSome_iff_exists.mp present
  refine ⟨_, by simp only [addIConnection, found]; rfl, ?_⟩
  intro nodeName nodeConnections listed other otherMember sameNode
  rw [OrderedMap.get?_set] at listed
  split at listed
  · rename_i isSource
    have sameType := singleTyped other otherMember connection member (sameNode.trans isSource)
    cases listed
    rw [sameType, OrderedMap.get?_set_self]; rfl
  · exact covered _ _ listed other otherMember sameNode

def OneType (result : IConnections) : Prop :=
  ∀ nodeName nodeConnections, result.get? nodeName = some nodeConnections →
    ∃ type, nodeConnections.keys = [type]

theorem oneType_empty : OneType ∅ := by
  intro nodeName nodeConnections listed
  simp at listed

theorem addIConnection_oneType (oneType : OneType result) (added : addIConnection result connection = .ok next) :
    OneType next := by
  obtain ⟨outputs, found, rfl⟩ := addIConnection_eq_ok added
  intro nodeName nodeConnections listed
  rw [OrderedMap.get?_set] at listed
  split at listed
  · cases listed
    have member : connection.type ∈ ((result.get? connection.from.name).getD
        ((∅ : INodeConnections).set connection.type [])).keys := by
      by_contra absent
      rw [OrderedMap.get?_eq_none.mpr absent] at found
      cases found
    rw [OrderedMap.keys_set, if_pos member]
    cases known : result.get? connection.from.name with
    | none => exact ⟨connection.type, rfl⟩
    | some nodeConnections => exact oneType _ _ known
  · exact oneType _ _ listed

theorem mem_keys_of_mem_groupAt {result : IConnections} {nodeName : String}
    {type : NodeConnectionType} {index : Nat} {exported : IConnection}
    (member : exported ∈ groupAt result nodeName type index) :
    ∃ nodeConnections, result.get? nodeName = some nodeConnections ∧ type ∈ nodeConnections.keys := by
  cases known : result.get? nodeName with
  | none => simp [groupAt, known] at member
  | some nodeConnections =>
    refine ⟨nodeConnections, rfl, ?_⟩
    by_contra absent
    simp [groupAt, known, OrderedMap.get?_eq_none.mpr absent] at member

namespace DirectedGraph

variable {graph : DirectedGraph} {connections : IConnections}

theorem toIConnections_lists (returns : graph.toIConnections = .ok connections) (nodeName : String)
    (type : NodeConnectionType) (index : Nat) (exported : IConnection) :
    exported ∈ groupAt connections nodeName type index ↔
      ∃ connection ∈ graph.connections.values, FiledAt nodeName type index exported connection := by
  have collected := Loop.foldlM_collected (fun _ => True)
    (fun result (place : String × NodeConnectionType × Nat × IConnection) =>
      place.2.2.2 ∈ groupAt result place.1 place.2.1 place.2.2.1)
    (fun connection place => FiledAt place.1 place.2.1 place.2.2.1 place.2.2.2 connection)
    (fun connection _ state next _ added => ⟨trivial, fun place =>
      mem_groupAt_addIConnection added _ _ _ _⟩) trivial returns
  simpa [groupAt] using collected.2 (nodeName, type, index, exported)

theorem toIConnections_isOk_iff (graph : DirectedGraph) :
    (∃ connections, graph.toIConnections = .ok connections) ↔ graph.SingleTyped := by
  constructor
  · rintro ⟨connections, returns⟩ first firstMember second secondMember sameNode
    have oneType : OneType connections := Loop.foldlM_preserves OneType
      (fun _ _ _ _ kept added => addIConnection_oneType kept added) oneType_empty returns
    have filed : ∀ connection ∈ graph.connections.values, ∃ nodeConnections,
        connections.get? connection.from.name = some nodeConnections ∧
          connection.type ∈ nodeConnections.keys := fun connection member =>
      mem_keys_of_mem_groupAt ((toIConnections_lists returns _ _ connection.outputIndex _).mpr
        ⟨connection, member, rfl, rfl, rfl, rfl⟩)
    obtain ⟨firstConnections, firstListed, firstKey⟩ := filed first firstMember
    obtain ⟨secondConnections, secondListed, secondKey⟩ := filed second secondMember
    rw [sameNode, secondListed] at firstListed
    cases firstListed
    obtain ⟨type, keys⟩ := oneType _ _ secondListed
    rw [keys, List.mem_singleton] at firstKey secondKey
    rw [firstKey, secondKey]
  · intro singleTyped
    obtain ⟨connections, returns, _⟩ := Loop.foldlM_returns
      (TypesCovered graph.connections.values)
      (fun connection member state covered => addIConnection_returns singleTyped member covered)
      (typesCovered_empty _)
    exact ⟨connections, returns⟩

/-! ## Importing an export -/

/-- A partly imported copy of `graph`. -/
structure ImportOf (graph state : DirectedGraph) : Prop where
  nodes : state.nodes = graph.nodes
  connections : state.connections.Submap graph.connections

theorem ImportOf.contains {graph state : DirectedGraph} (importOf : ImportOf graph state)
    {node : INode} (member : graph.Contains node) : state.Contains node := by
  rwa [Contains, importOf.nodes]

theorem WellFormed.imports_connection {graph state : DirectedGraph} (wellFormed : graph.WellFormed)
    (importOf : ImportOf graph state) {connection : GraphConnection}
    (member : connection ∈ graph.connections.values) :
    ∃ next, state.addConnection connection = .ok next ∧ ImportOf graph next ∧
      ∀ other, other ∈ next.connections.values ↔
        other ∈ state.connections.values ∨ other = connection := by
  obtain ⟨next, added, sameNodes, submap, holds⟩ := wellFormed.copyConnection importOf.connections
    member (importOf.contains (wellFormed.fromNode _ member))
    (importOf.contains (wellFormed.toNode _ member))
  exact ⟨next, added, ⟨sameNodes.trans importOf.nodes, submap⟩, holds⟩

theorem mem_groupAt_iff {nodeName : String} {type : NodeConnectionType} {index : Nat} {exported : IConnection} :
    exported ∈ groupAt connections nodeName type index ↔
      ∃ nodeConnections, (nodeName, nodeConnections) ∈ connections.entries ∧
        ∃ outputs, (type, outputs) ∈ nodeConnections.entries ∧
          ∃ slot, (slot, index) ∈ outputs.zipIdx ∧ exported ∈ slot.getD [] := by
  constructor
  · intro member
    obtain ⟨nodeConnections, listed, _⟩ := mem_keys_of_mem_groupAt member
    refine ⟨nodeConnections, OrderedMap.get?_eq_some.mp listed, ?_⟩
    cases typed : nodeConnections.get? type with
    | none => simp [groupAt, listed, typed] at member
    | some outputs =>
      simp only [groupAt, listed, Option.bind_some, typed, Option.getD_some] at member
      have present : SparseArray.read outputs index ≠ .hole := by
        intro missing; simp [missing] at member
      have bound := SparseArray.lt_length_of_read_ne_hole present
      refine ⟨outputs, OrderedMap.get?_eq_some.mp typed, SparseArray.read outputs index, ?_, member⟩
      rw [SparseArray.read_eq_getElem bound]
      exact List.mem_zipIdx_iff_getElem?.mpr (List.getElem?_eq_getElem bound)
  · rintro ⟨nodeConnections, listed, outputs, typed, slot, placed, member⟩
    have located := List.mem_zipIdx_iff_getElem?.mp placed
    obtain ⟨bound, located⟩ := List.getElem?_eq_some_iff.mp located
    simp only [groupAt, OrderedMap.get?_eq_some.mpr listed, Option.bind_some,
      OrderedMap.get?_eq_some.mpr typed, Option.getD_some, SparseArray.read_eq_getElem bound]
    rwa [located]

theorem toWorkflow_hasInput {settings : IWorkflowSettings} {workflow : Workflow}
    (returns : graph.toWorkflow settings = .ok workflow) {connection : GraphConnection}
    (member : connection ∈ graph.connections.values) : HasInput workflow.connectionsByDestinationNode
      connection.to.name connection.type connection.inputIndex := by
  rw [toWorkflow] at returns
  cases exported : graph.toIConnections with
  | error error =>
    rw [exported] at returns
    cases returns
  | ok connections =>
    rw [exported] at returns
    cases returns
    have inGroup := (toIConnections_lists exported connection.from.name connection.type
      connection.outputIndex (exportedConnection connection)).mpr ⟨connection, member, rfl, rfl, rfl, rfl⟩
    obtain ⟨nodeConnections, listed, outputs, typed, slot, placed, inSlot⟩ := mem_groupAt_iff.mp inGroup
    exact hasInput_getConnectionsByDestination listed typed placed inSlot

theorem toIConnections_keys (returns : graph.toIConnections = .ok connections) :
    ∀ nodeName ∈ connections.keys, ∃ connection ∈ graph.connections.values,
      connection.from.name = nodeName := by
  refine Loop.foldlM_preserves
    (fun result => ∀ nodeName ∈ result.keys, ∃ connection ∈ graph.connections.values,
      connection.from.name = nodeName) ?_ (by simp) returns
  intro connection member state next kept added nodeName listed
  obtain ⟨outputs, _, rfl⟩ := addIConnection_eq_ok added
  rcases OrderedMap.mem_keys_set.mp listed with isSource | old
  · exact ⟨connection, member, isSource.symm⟩
  · exact kept nodeName old

section

variable {graph : DirectedGraph} {connections : IConnections} {workflow : Workflow}

/-- The workflow `toWorkflow` builds from an export of `graph`. -/
structure ExportOf (graph : DirectedGraph) (connections : IConnections) (workflow : Workflow) :
    Prop where
  returns : graph.toIConnections = .ok connections
  nodes : workflow.nodes = graph.nodes
  connections : workflow.connectionsBySourceNode = connections

theorem ExportOf.getNode (exportOf : ExportOf graph connections workflow) (nodeName : String) :
    workflow.getNode nodeName = graph.nodes.get? nodeName := by
  rw [Workflow.getNode, exportOf.nodes]

theorem WellFormed.importConnection_adds (wellFormed : graph.WellFormed)
    (exportOf : ExportOf graph connections workflow) {nodeName : String} {source : INode}
    (found : graph.nodes.get? nodeName = some source) {type : NodeConnectionType} {index : Nat}
    {conn : IConnection} (listed : conn ∈ groupAt connections nodeName type index)
    {state : DirectedGraph} (importOf : ImportOf graph state) :
    ∃ next, importConnection workflow source type index state conn = .ok next ∧ ImportOf graph next ∧
      ∀ connection, connection ∈ next.connections.values ↔ connection ∈ state.connections.values ∨
        (connection ∈ graph.connections.values ∧ FiledAt nodeName type index conn connection) := by
  obtain ⟨connection, inGraph, filed⟩ :=
    (toIConnections_lists exportOf.returns nodeName type index conn).mp listed
  have sameSource : source = connection.from := by
    have contains := wellFormed.fromNode connection inGraph
    rw [Contains, ← filed.nodeName, found] at contains
    exact Option.some.inj contains
  have target : workflow.getNode conn.node = some connection.to := by
    rw [exportOf.getNode, filed.exported]
    exact wellFormed.toNode connection inGraph
  have rebuilt : GraphConnection.mk source connection.to type index conn.index = connection := by
    rw [sameSource, filed.type, filed.index, filed.exported]; rfl
  obtain ⟨next, added, keeps, holds⟩ := wellFormed.imports_connection importOf inGraph
  refine ⟨next, ?_, keeps, fun other => ?_⟩
  · simp only [importConnection, target]
    rw [rebuilt]
    exact added
  · rw [holds]
    refine or_congr_right ⟨fun same => same ▸ ⟨inGraph, filed⟩, ?_⟩
    rintro ⟨otherInGraph, otherFiled⟩
    exact wellFormed.eq_of_makeKey otherInGraph inGraph (otherFiled.makeKey_eq filed)

/-- Importing an export gives back the nodes and the connections of the graph. -/
theorem WellFormed.fromWorkflow_export (wellFormed : graph.WellFormed)
    (exportOf : ExportOf graph connections workflow) :
    ∃ imported, fromWorkflow workflow = .ok imported ∧ imported.nodes = graph.nodes ∧
      ∀ connection, connection ∈ imported.connections.values ↔
        connection ∈ graph.connections.values := by
  have start : ImportOf graph (empty.addNodes workflow.nodes.values) := by
    constructor
    · rw [nodes_addNodes, exportOf.nodes]
      exact wellFormed.nodes_rebuilt
    · rw [connections_addNodes]
      exact OrderedMap.Submap.empty _
  have importsNode : ∀ entry ∈ workflow.connectionsBySourceNode.entries, ∀ state,
      ImportOf graph state → ∃ next, importNode workflow state entry = .ok next ∧
        ImportOf graph next ∧ ∀ connection, connection ∈ next.connections.values ↔
          connection ∈ state.connections.values ∨
            ∃ typed ∈ entry.2.entries, ∃ output ∈ typed.2.zipIdx, ∃ conn ∈ output.1.getD [],
              connection ∈ graph.connections.values ∧
                FiledAt entry.1 typed.1 output.2 conn connection := by
    rintro ⟨nodeName, nodeConnections⟩ inTable state importOf
    rw [exportOf.connections] at inTable
    obtain ⟨source, inGraph, isSource⟩ :=
      toIConnections_keys exportOf.returns nodeName (OrderedMap.mem_keys_of_mem inTable)
    have found : graph.nodes.get? nodeName = some source.from :=
      isSource ▸ wellFormed.fromNode source inGraph
    simp only [importNode, exportOf.getNode, found]
    -- The three nested loops: over the types, over the outputs and over the connections of an output.
    refine Loop.foldlM_collects (ImportOf graph) (fun state connection =>
      connection ∈ state.connections.values) _ (fun typed isTyped state importOf => ?_) importOf
    refine Loop.foldlM_collects (ImportOf graph) (fun state connection =>
      connection ∈ state.connections.values) _ (fun output isOutput state importOf => ?_) importOf
    refine Loop.foldlM_collects (ImportOf graph) (fun state connection =>
      connection ∈ state.connections.values) _ (fun conn member state importOf => ?_) importOf
    exact wellFormed.importConnection_adds exportOf found
      (mem_groupAt_iff.mpr ⟨_, inTable, _, isTyped, _, isOutput, member⟩) importOf
  obtain ⟨imported, imports, importOf, holds⟩ := Loop.foldlM_collects (ImportOf graph)
    (fun state connection => connection ∈ state.connections.values) _ importsNode start
  refine ⟨imported, imports, importOf.nodes, fun connection => ?_⟩
  rw [holds, connections_addNodes]
  -- Every connection comes in through its own place in the table.
  constructor
  · rintro (inEmpty | ⟨_, _, _, _, _, _, _, _, inGraph, _⟩)
    · cases inEmpty
    · exact inGraph
  · intro inGraph
    have listed := (toIConnections_lists exportOf.returns connection.from.name connection.type
      connection.outputIndex (exportedConnection connection)).mpr
        ⟨connection, inGraph, rfl, rfl, rfl, rfl⟩
    obtain ⟨nodeConnections, inTable, outputs, isTyped, slot, isOutput, member⟩ :=
      mem_groupAt_iff.mp listed
    rw [exportOf.connections]
    exact .inr ⟨_, inTable, _, isTyped, _, isOutput, _, member, inGraph, rfl, rfl, rfl, rfl⟩

end

/-! ## The round trip -/

/-- Export followed by import gives a graph with the same nodes and the same connections. -/
def RoundTrips (graph : DirectedGraph) (settings : IWorkflowSettings) : Prop :=
  ∃ workflow imported, graph.toWorkflow settings = .ok workflow ∧
    fromWorkflow workflow = .ok imported ∧
    (∀ node, node ∈ imported.nodes.values ↔ node ∈ graph.nodes.values) ∧
    ∀ connection, connection ∈ imported.connections.values ↔ connection ∈ graph.connections.values

theorem WellFormed.exportOf_new (wellFormed : graph.WellFormed) (returns : graph.toIConnections = .ok connections)
    (settings : IWorkflowSettings) :
    ExportOf graph connections (Workflow.new graph.nodes.values connections settings) :=
  ⟨returns, wellFormed.nodes_rebuilt, rfl⟩

/-- The round trip works exactly on the graphs whose nodes each use one type of connection. -/
theorem roundTrips_iff_singleTyped (graph : DirectedGraph) (built : graph.Built)
    (settings : IWorkflowSettings) : graph.RoundTrips settings ↔ graph.SingleTyped := by
  rw [← toIConnections_isOk_iff]
  constructor
  · rintro ⟨workflow, _, exports, _⟩
    cases returns : graph.toIConnections with
    | error thrown => rw [toWorkflow, returns] at exports; cases exports
    | ok connections => exact ⟨connections, rfl⟩
  · rintro ⟨connections, returns⟩
    obtain ⟨imported, imports, sameNodes, sameConnections⟩ :=
      built.wellFormed.fromWorkflow_export (built.wellFormed.exportOf_new returns settings)
    exact ⟨_, imported, by rw [toWorkflow, returns]; rfl, imports,
      fun node => by rw [sameNodes], sameConnections⟩

/-- A cycle of two nodes that uses two outputs of one of them. -/
def twoOutputs : DirectedGraph :=
  let loop : INode := { id := "0", name := "loop", type := "splitInBatches" }
  let body : INode := { id := "1", name := "body", type := "set" }
  let done : GraphConnection := ⟨loop, loop, .main, 0, 1⟩
  let each : GraphConnection := ⟨loop, body, .main, 1, 0⟩
  let back : GraphConnection := ⟨body, loop, .main, 0, 0⟩
  { nodes := ((∅ : OrderedMap String INode).set "loop" loop).set "body" body
    connections := (((∅ : OrderedMap String GraphConnection).set (makeKey done) done).set
      (makeKey each) each).set (makeKey back) back }

theorem twoOutputs_roundTrips : twoOutputs.RoundTrips {} :=
  (roundTrips_iff_singleTyped twoOutputs (built_iff_wellFormed.mpr (by decide)) {}).mpr (by decide)

/-- A node with a data output and an AI output, each connected to a node of its own. -/
def twoTyped : DirectedGraph :=
  let agent : INode := { id := "0", name := "agent", type := "agent" }
  let next : INode := { id := "1", name := "next", type := "set" }
  let root : INode := { id := "2", name := "root", type := "chain" }
  let data : GraphConnection := ⟨agent, next, .main, 0, 0⟩
  let tool : GraphConnection := ⟨agent, root, .aiTool, 0, 0⟩
  { nodes := (((∅ : OrderedMap String INode).set "agent" agent).set "next" next).set "root" root
    connections := ((∅ : OrderedMap String GraphConnection).set (makeKey data) data).set
      (makeKey tool) tool }

theorem twoTyped_not_roundTrips : twoTyped.Built ∧ ¬ twoTyped.RoundTrips {} := by
  refine ⟨built_iff_wellFormed.mpr (by decide), ?_⟩
  rintro ⟨workflow, _, exports, _⟩
  have throws : twoTyped.toWorkflow {} =
      .error (.typeError "Cannot read properties of undefined") := by rfl
  rw [throws] at exports
  cases exports

end DirectedGraph

end N8n.Core
