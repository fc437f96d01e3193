import Mathlib.Data.List.Perm.Basic
import N8n.Library.Decimal
import N8n.Library.OrderedMap
import N8n.Workflow.Interfaces

/-! # Connections on the canvas

`packages/editor-ui/src/utils/canvasUtilsV2.ts`.  The connections of a workflow
become connections of the canvas, which keep type and index in the text of a
handle, and are read back from there.  The keys of `INodeConnections` are any
texts, and so are the types here.
-/

namespace N8n.Editor

/-- One end of a connection; the index is a whole number. -/
structure IConnection where
  node : String
  type : String
  index : Int
deriving DecidableEq, Repr

/-- The ports of a node, by type.  The ports of a type and the connections of a port may be missing. -/
abbrev INodeConnections := OrderedMap String (Option (List (Option (List IConnection))))

abbrev IConnections := OrderedMap String INodeConnections

structure INodeUi where
  id : String
  name : String
deriving DecidableEq, Repr

structure CanvasConnectionPort where
  node : String
  index : Int
  type : String
deriving DecidableEq, Repr

structure CanvasConnection where
  id : String
  source : String
  target : String
  sourceHandle : String
  targetHandle : String
  sourcePort : CanvasConnectionPort
  targetPort : CanvasConnectionPort
deriving DecidableEq, Repr

def nodeConnectionTypes : List String :=
  [NodeConnectionType.aiAgent, .aiChain, .aiDocument, .aiEmbedding, .aiLanguageModel, .aiMemory, .aiOutputParser,
    .aiRetriever, .aiTextSplitter, .aiTool, .aiVectorStore, .main].map NodeConnectionType.value

def canvasConnectionModes : List String := ["inputs", "outputs"]

/-! ## The texts -/

def createCanvasConnectionHandleString (mode type : String) (index : Int) : String :=
  mode ++ "/" ++ type ++ "/" ++ toString index

def createCanvasConnectionId (source sourceHandle target targetHandle : String) : String :=
  "[" ++ source ++ "/" ++ sourceHandle ++ "][" ++ target ++ "/" ++ targetHandle ++ "]"

structure Handle where
  mode : String
  type : String
  index : Int
deriving DecidableEq, Repr

/-- What is no mode, no type or no number is replaced by the first output. -/
def parseCanvasConnectionHandleString (handle : String) : Handle :=
  let parts := (handle.toList.splitOn '/').map String.ofList
  { mode := match parts[0]? with
      | some mode => if mode ∈ canvasConnectionModes then mode else "outputs"
      | none => "outputs"
    type := match parts[1]? with
      | some type => if type ∈ nodeConnectionTypes then type else "main"
      | none => "main"
    index := match parts[2]? with
      | some index => (Text.parseInt index.toList).getD 0
      | none => 0 }

/-! ## To the canvas -/

def idOfName (nodes : List INodeUi) (name : String) : String :=
  match nodes.find? (·.name = name) with
  | some node => node.id
  | none => ""

/-- The connection of one port to another; it is left out when a node has no id. -/
def mapConnection (nodes : List INodeUi) (source target : IConnection) : Option CanvasConnection :=
  let fromId := idOfName nodes source.node
  let toId := idOfName nodes target.node
  let sourceHandle := createCanvasConnectionHandleString "outputs" source.type source.index
  let targetHandle := createCanvasConnectionHandleString "inputs" target.type target.index
  if fromId ≠ "" ∧ toId ≠ "" then
    some
      { id := createCanvasConnectionId fromId sourceHandle toId targetHandle
        source := fromId
        target := toId
        sourceHandle
        targetHandle
        sourcePort := { node := source.node, index := source.index, type := source.type }
        targetPort := { node := target.node, index := target.index, type := target.type } }
  else
    none

def mapLegacyConnectionsToCanvasConnections (legacyConnections : IConnections) (nodes : List INodeUi) :
    List CanvasConnection :=
  legacyConnections.entries.flatMap fun (fromNodeName, nodeConnections) =>
    nodeConnections.entries.flatMap fun (fromConnectionType, fromPorts) =>
      (fromPorts.getD []).zipIdx.flatMap fun (toPorts, fromIndex) =>
        (toPorts.getD []).filterMap fun toPort =>
          mapConnection nodes { node := fromNodeName, type := fromConnectionType, index := fromIndex } toPort

/-! ## Back from the canvas -/

def mapCanvasConnectionToLegacyConnection (sourceNode targetNode : Option INodeUi) (connection : CanvasConnection) :
    IConnection × IConnection :=
  let source := parseCanvasConnectionHandleString connection.sourceHandle
  let target := parseCanvasConnectionHandleString connection.targetHandle
  ({ node := (sourceNode.map (·.name)).getD "", type := source.type, index := source.index },
    { node := (targetNode.map (·.name)).getD "", type := target.type, index := target.index })

/-- The connection between the nodes that have the ids of the canvas connection. -/
def mapBack (nodes : List INodeUi) (connection : CanvasConnection) : IConnection × IConnection :=
  mapCanvasConnectionToLegacyConnection (nodes.find? (·.id = connection.source))
    (nodes.find? (·.id = connection.target)) connection

/-! ## The connections of a workflow -/

def allConnections (legacyConnections : IConnections) : List (IConnection × IConnection) :=
  legacyConnections.entries.flatMap fun (fromNodeName, nodeConnections) =>
    nodeConnections.entries.flatMap fun (fromConnectionType, fromPorts) =>
      (fromPorts.getD []).zipIdx.flatMap fun (toPorts, fromIndex) =>
        (toPorts.getD []).map fun toPort =>
          ({ node := fromNodeName, type := fromConnectionType, index := fromIndex }, toPort)

theorem mapLegacyConnections_eq (legacyConnections : IConnections) (nodes : List INodeUi) :
    mapLegacyConnectionsToCanvasConnections legacyConnections nodes =
      (allConnections legacyConnections).filterMap fun connection => mapConnection nodes connection.1 connection.2 := by
  simp only [mapLegacyConnectionsToCanvasConnections, allConnections, List.filterMap_flatMap, List.filterMap_map]
  rfl

/-- Nodes with distinct names and distinct ids that can stand in the id of a connection, among them the connected
ones. -/
structure Complete (legacyConnections : IConnections) (nodes : List INodeUi) : Prop where
  distinctNames : (nodes.map (·.name)).Nodup
  distinctIds : (nodes.map (·.id)).Nodup
  plainIds : ∀ node ∈ nodes, '/' ∉ node.id.toList ∧ '[' ∉ node.id.toList ∧ ']' ∉ node.id.toList
  connected : ∀ connection ∈ allConnections legacyConnections,
    connection.1.node ∈ nodes.map (·.name) ∧ connection.2.node ∈ nodes.map (·.name)

/-- The canvas shows exactly the connections of the workflow, each under an id of its own. -/
def ShowsExactly (legacyConnections : IConnections) (nodes : List INodeUi) : Prop :=
  ((mapLegacyConnectionsToCanvasConnections legacyConnections nodes).map (mapBack nodes)).Perm
      (allConnections legacyConnections) ∧
    ∀ first ∈ mapLegacyConnectionsToCanvasConnections legacyConnections nodes,
      ∀ second ∈ mapLegacyConnectionsToCanvasConnections legacyConnections nodes,
        first.id = second.id → first = second

def KnownTypesAndIds (legacyConnections : IConnections) (nodes : List INodeUi) : Prop :=
  ∀ connection ∈ allConnections legacyConnections,
    connection.1.type ∈ nodeConnectionTypes ∧ connection.2.type ∈ nodeConnectionTypes ∧
      idOfName nodes connection.1.node ≠ "" ∧ idOfName nodes connection.2.node ≠ ""

/-! ## Handles -/

theorem plain_of_mem_nodeConnectionTypes {type : String} (known : type ∈ nodeConnectionTypes) :
    '/' ∉ type.toList ∧ '[' ∉ type.toList ∧ ']' ∉ type.toList := by
  revert known
  revert type
  decide

theorem toList_handle (mode type : String) (index : Int) :
    (createCanvasConnectionHandleString mode type index).toList =
      mode.toList ++ '/' :: (type.toList ++ '/' :: Text.printInt index) := by
  simp [createCanvasConnectionHandleString, Text.printInt]

theorem parse_create {mode type : String} (isMode : mode ∈ canvasConnectionModes)
    (known : type ∈ nodeConnectionTypes) (index : Int) :
    parseCanvasConnectionHandleString (createCanvasConnectionHandleString mode type index) = ⟨mode, type, index⟩ := by
  have plainMode : '/' ∉ mode.toList := by
    revert isMode
    revert mode
    decide
  have parts : (createCanvasConnectionHandleString mode type index).toList.splitOn '/' =
      [mode.toList, type.toList, Text.printInt index] := by
    rw [toList_handle, Text.splitOn_append_separator plainMode,
      Text.splitOn_append_separator (plain_of_mem_nodeConnectionTypes known).1,
      Text.splitOn_of_not_mem (Text.not_mem_printInt (by decide) (by decide) index)]
  simp [parseCanvasConnectionHandleString, parts, isMode, known, Text.parseInt_printInt]

theorem parse_type_known (handle : String) : (parseCanvasConnectionHandleString handle).type ∈ nodeConnectionTypes := by
  have main : "main" ∈ nodeConnectionTypes := by decide
  simp only [parseCanvasConnectionHandleString]
  split
  · split
    next known => exact known
    next => exact main
  · exact main

/-! ## One connection -/

variable {nodes : List INodeUi}

theorem find_idOfName (distinctIds : (nodes.map (·.id)).Nodup) {name : String} (hasId : idOfName nodes name ≠ "") :
    ∃ node, nodes.find? (·.id = idOfName nodes name) = some node ∧ node.name = name := by
  unfold idOfName at hasId ⊢
  cases found : nodes.find? (·.name = name) with
  | none =>
    rw [found] at hasId
    exact absurd rfl hasId
  | some node =>
    have isNode := List.mem_of_find?_eq_some found
    have named : node.name = name := by simpa using List.find?_some found
    cases again : nodes.find? (·.id = node.id) with
    | none => exact absurd (List.find?_eq_none.mp again node isNode) (by simp)
    | some other =>
      have sameId : other.id = node.id := by simpa using List.find?_some again
      rw [List.inj_on_of_nodup_map distinctIds (List.mem_of_find?_eq_some again) isNode sameId]
      exact ⟨node, rfl, named⟩

variable {source target : IConnection}

theorem mapConnection_eq_some {connection : CanvasConnection}
    (mapped : mapConnection nodes source target = some connection) :
    (idOfName nodes source.node ≠ "" ∧ idOfName nodes target.node ≠ "") ∧
      connection =
        { id := createCanvasConnectionId (idOfName nodes source.node)
            (createCanvasConnectionHandleString "outputs" source.type source.index) (idOfName nodes target.node)
            (createCanvasConnectionHandleString "inputs" target.type target.index)
          source := idOfName nodes source.node
          target := idOfName nodes target.node
          sourceHandle := createCanvasConnectionHandleString "outputs" source.type source.index
          targetHandle := createCanvasConnectionHandleString "inputs" target.type target.index
          sourcePort := { node := source.node, index := source.index, type := source.type }
          targetPort := { node := target.node, index := target.index, type := target.type } } := by
  simp only [mapConnection] at mapped
  split at mapped
  next hasIds => exact ⟨hasIds, (Option.some.inj mapped).symm⟩
  next => cases mapped

theorem mapConnection_isSome :
    (mapConnection nodes source target).isSome = true ↔
      idOfName nodes source.node ≠ "" ∧ idOfName nodes target.node ≠ "" := by
  simp only [mapConnection]
  split
  next hasIds => simpa using hasIds
  next noIds => simpa using noIds

theorem mapBack_mapConnection (distinctIds : (nodes.map (·.id)).Nodup) {connection : CanvasConnection}
    (mapped : mapConnection nodes source target = some connection) (knownSource : source.type ∈ nodeConnectionTypes)
    (knownTarget : target.type ∈ nodeConnectionTypes) : mapBack nodes connection = (source, target) := by
  obtain ⟨⟨sourceHasId, targetHasId⟩, rfl⟩ := mapConnection_eq_some mapped
  obtain ⟨sourceNode, foundSource, sourceName⟩ := find_idOfName distinctIds sourceHasId
  obtain ⟨targetNode, foundTarget, targetName⟩ := find_idOfName distinctIds targetHasId
  simp [mapBack, mapCanvasConnectionToLegacyConnection, foundSource, foundTarget, sourceName, targetName,
    parse_create (by decide : "outputs" ∈ canvasConnectionModes) knownSource,
    parse_create (by decide : "inputs" ∈ canvasConnectionModes) knownTarget]

theorem toList_id (source sourceHandle target targetHandle : String) :
    (createCanvasConnectionId source sourceHandle target targetHandle).toList =
      '[' :: (source.toList ++ '/' :: (sourceHandle.toList ++ ']' :: '[' ::
        (target.toList ++ '/' :: (targetHandle.toList ++ [']'])))) := by
  simp [createCanvasConnectionId]

theorem handle_append_inj {mode type type' : String} (known : type ∈ nodeConnectionTypes)
    (known' : type' ∈ nodeConnectionTypes) {index index' : Int} {rest rest' : List Char}
    (equal : (createCanvasConnectionHandleString mode type index).toList ++ ']' :: rest =
      (createCanvasConnectionHandleString mode type' index').toList ++ ']' :: rest') :
    type = type' ∧ index = index' ∧ rest = rest' := by
  simp only [toList_handle, List.append_assoc, List.cons_append] at equal
  have afterMode := (List.cons.inj (List.append_cancel_left equal)).2
  obtain ⟨types, afterType⟩ := Text.append_separator_inj (plain_of_mem_nodeConnectionTypes known).1
    (plain_of_mem_nodeConnectionTypes known').1 afterMode
  obtain ⟨indexes, rests⟩ := Text.append_separator_inj (Text.not_mem_printInt (by decide) (by decide) index)
    (Text.not_mem_printInt (by decide) (by decide) index') afterType
  exact ⟨String.toList_injective types, Text.printInt_injective indexes, rests⟩

theorem id_inj {source source' target target' : String} (plainSource : '/' ∉ source.toList)
    (plainSource' : '/' ∉ source'.toList) (plainTarget : '/' ∉ target.toList) (plainTarget' : '/' ∉ target'.toList)
    {type type' otherType otherType' : String} (known : type ∈ nodeConnectionTypes)
    (known' : type' ∈ nodeConnectionTypes) (otherKnown : otherType ∈ nodeConnectionTypes)
    (otherKnown' : otherType' ∈ nodeConnectionTypes) {index index' otherIndex otherIndex' : Int}
    (equal : createCanvasConnectionId source (createCanvasConnectionHandleString "outputs" type index) target
        (createCanvasConnectionHandleString "inputs" otherType otherIndex) =
      createCanvasConnectionId source' (createCanvasConnectionHandleString "outputs" type' index') target'
        (createCanvasConnectionHandleString "inputs" otherType' otherIndex')) :
    source = source' ∧ type = type' ∧ index = index' ∧ target = target' ∧ otherType = otherType' ∧
      otherIndex = otherIndex' := by
  have lists := congrArg String.toList equal
  rw [toList_id, toList_id] at lists
  obtain ⟨sources, afterSource⟩ := Text.append_separator_inj plainSource plainSource' (List.cons.inj lists).2
  obtain ⟨types, indexes, afterHandle⟩ := handle_append_inj known known' afterSource
  obtain ⟨targets, afterTarget⟩ := Text.append_separator_inj plainTarget plainTarget' (List.cons.inj afterHandle).2
  obtain ⟨otherTypes, otherIndexes, _⟩ := handle_append_inj otherKnown otherKnown' afterTarget
  exact ⟨String.toList_injective sources, types, indexes, String.toList_injective targets, otherTypes, otherIndexes⟩

/-! ## All connections -/

section Complete

variable {legacyConnections : IConnections} {nodes : List INodeUi} (complete : Complete legacyConnections nodes)

include complete

theorem idOfName_inj {name name' : String} (hasId : idOfName nodes name ≠ "") (hasId' : idOfName nodes name' ≠ "")
    (same : idOfName nodes name = idOfName nodes name') : name = name' := by
  obtain ⟨node, found, rfl⟩ := find_idOfName complete.distinctIds hasId
  obtain ⟨node', found', rfl⟩ := find_idOfName complete.distinctIds hasId'
  rw [same, found', Option.some.injEq] at found
  rw [found]

theorem plain_idOfName {name : String} (hasId : idOfName nodes name ≠ "") : '/' ∉ (idOfName nodes name).toList := by
  obtain ⟨node, found, _⟩ := find_idOfName complete.distinctIds hasId
  have sameId : node.id = idOfName nodes name := by simpa using List.find?_some found
  rw [← sameId]
  exact (complete.plainIds node (List.mem_of_find?_eq_some found)).1

theorem mapBack_all (known : KnownTypesAndIds legacyConnections nodes) :
    (mapLegacyConnectionsToCanvasConnections legacyConnections nodes).map (mapBack nodes) =
      allConnections legacyConnections := by
  rw [mapLegacyConnections_eq, List.map_filterMap]
  have kept : ∀ connection ∈ allConnections legacyConnections,
      (mapConnection nodes connection.1 connection.2).map (mapBack nodes) = some connection := by
    intro connection member
    obtain ⟨knownSource, knownTarget, hasIds⟩ := known connection member
    obtain ⟨mapped, isMapped⟩ := Option.isSome_iff_exists.mp (mapConnection_isSome.mpr hasIds)
    rw [isMapped, Option.map_some, mapBack_mapConnection complete.distinctIds isMapped knownSource knownTarget]
  rw [List.filterMap_congr kept, List.filterMap_some]

theorem id_injective (known : KnownTypesAndIds legacyConnections nodes) :
    ∀ first ∈ mapLegacyConnectionsToCanvasConnections legacyConnections nodes,
      ∀ second ∈ mapLegacyConnectionsToCanvasConnections legacyConnections nodes,
        first.id = second.id → first = second := by
  intro first isFirst second isSecond same
  rw [mapLegacyConnections_eq, List.mem_filterMap] at isFirst isSecond
  obtain ⟨⟨source, target⟩, member, mapped⟩ := isFirst
  obtain ⟨⟨source', target'⟩, member', mapped'⟩ := isSecond
  obtain ⟨hasIds, rfl⟩ := mapConnection_eq_some mapped
  obtain ⟨hasIds', rfl⟩ := mapConnection_eq_some mapped'
  obtain ⟨knownSource, knownTarget, _⟩ := known _ member
  obtain ⟨knownSource', knownTarget', _⟩ := known _ member'
  obtain ⟨sources, types, indexes, targets, otherTypes, otherIndexes⟩ :=
    id_inj (plain_idOfName complete hasIds.1) (plain_idOfName complete hasIds'.1) (plain_idOfName complete hasIds.2)
      (plain_idOfName complete hasIds'.2) knownSource knownSource' knownTarget knownTarget' same
  have sourceNames := idOfName_inj complete hasIds.1 hasIds'.1 sources
  have targetNames := idOfName_inj complete hasIds.2 hasIds'.2 targets
  have sameSource : source = source' := by
    cases source; cases source'
    simp_all
  have sameTarget : target = target' := by
    cases target; cases target'
    simp_all
  rw [sameSource, sameTarget]

omit complete in
theorem known_of_perm (shown : ((mapLegacyConnectionsToCanvasConnections legacyConnections nodes).map
      (mapBack nodes)).Perm (allConnections legacyConnections)) : KnownTypesAndIds legacyConnections nodes := by
  intro connection member
  obtain ⟨back, _, isBack⟩ := List.mem_map.mp (shown.mem_iff.mpr member)
  have types : connection.1.type ∈ nodeConnectionTypes ∧ connection.2.type ∈ nodeConnectionTypes := by
    rw [← isBack]
    exact ⟨parse_type_known _, parse_type_known _⟩
  have lengths := shown.length_eq
  rw [List.length_map, mapLegacyConnections_eq, List.length_filterMap_eq_countP, List.countP_eq_length] at lengths
  exact ⟨types.1, types.2, mapConnection_isSome.mp (lengths connection member)⟩

/-- The canvas shows exactly the connections of a workflow when their types are known and the connected nodes have
ids. -/
theorem showsExactly_iff : ShowsExactly legacyConnections nodes ↔ KnownTypesAndIds legacyConnections nodes := by
  constructor
  · rintro ⟨shown, _⟩
    exact known_of_perm shown
  · intro known
    exact ⟨List.Perm.of_eq (mapBack_all complete known), id_injective complete known⟩

end Complete

/-- Two nodes, the first connected with the second twice and with itself. -/
def exampleConnections (type : String) : IConnections :=
  ⟨[("a", ⟨[(type, some [none, some [⟨"b", "main", 0⟩, ⟨"b", "main", 0⟩, ⟨"a", "main", 1⟩]])],
    by simp⟩)], by simp⟩

def exampleNodes : List INodeUi := [⟨"1", "a"⟩, ⟨"2", "b"⟩]

theorem complete_example (type : String) : Complete (exampleConnections type) exampleNodes where
  distinctNames := by decide
  distinctIds := by decide
  plainIds := by decide
  connected := by simp [allConnections, exampleConnections, exampleNodes]

theorem showsExactly_iff_of_example :
    ShowsExactly (exampleConnections "main") exampleNodes ↔ KnownTypesAndIds (exampleConnections "main") exampleNodes :=
  showsExactly_iff (complete_example "main")

/-- A type that is not in the list is shown as `main`. -/
theorem not_showsExactly_of_unknown_type :
    ¬ ∀ (legacyConnections : IConnections) (nodes : List INodeUi), Complete legacyConnections nodes →
      ShowsExactly legacyConnections nodes := by
  intro shows
  have shown := (shows _ _ (complete_example "ai_unknown")).1
  revert shown
  decide

end N8n.Editor
