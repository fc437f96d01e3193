import Mathlib.Data.Set.Insert
import N8n.Library.Positions
import N8n.Library.Runs
import N8n.Workflow.Workflow

/-! # The connections in the editor's store

`addConnection`, `removeConnection` and `removeAllNodeConnection` of
`packages/editor-ui/src/stores/workflows.store.ts`, and the set of edges they
stand for.
-/

namespace N8n.WorkflowsStore

/-! ## The functions of the store -/

/-- `connection` is the source with its output and the destination with its input. -/
def addConnection (connections : IConnections) (connection : List IConnection) : IConnections :=
  match connection with
  | [sourceData, destinationData] =>
    let nodeConnections := (connections.get? sourceData.node).getD ∅
    let outputs := padInputs ((nodeConnections.get? sourceData.type).getD []) sourceData.index
    let connectionsToCheck := (SparseArray.read outputs sourceData.index).getD []
    let connectionExists := connectionsToCheck.any (· = destinationData)
    connections.set sourceData.node (nodeConnections.set sourceData.type
      (if connectionExists then outputs
        else SparseArray.write outputs sourceData.index (.full (connectionsToCheck ++ [destinationData]))))
  -- all connections need two entries
  | _ => connections

/-- The loop `for (const index in connections)` deletes what it finds from the array it runs over. -/
def removeConnection (connections : IConnections) (sourceData destinationData : IConnection) : IConnections :=
  match connections.get? sourceData.node with
  | none => connections
  | some nodeConnections =>
    match nodeConnections.get? sourceData.type with
    | none => connections
    | some outputs =>
      if outputs.length < sourceData.index + 1 then connections
      else
        match SparseArray.read outputs sourceData.index with
        | .full found =>
          connections.set sourceData.node (nodeConnections.set sourceData.type
            (SparseArray.write outputs sourceData.index
              (.full (Positions.eraseVisited (fun connection => connection = destinationData)
                (List.range found.length) found))))
        | _ => connections

/-- Collects the indexes of the connections to the node and splices each of them. -/
def removeFromOutput (nodeName : String) : Slot (List IConnection) → Slot (List IConnection)
  | .full connectionsToRemove =>
    let indexesToRemove := Positions.collect (fun connection => connection.node = nodeName) connectionsToRemove
    .full (Positions.eraseEach indexesToRemove connectionsToRemove)
  | slot => slot

def removeAllNodeConnection (connections : IConnections) (node : INode)
    (preserveInputConnections preserveOutputConnections : Bool) : IConnections :=
  let connections := if preserveOutputConnections then connections else connections.erase node.name
  if preserveInputConnections then connections
  else connections.mapValues fun nodeConnections => nodeConnections.mapValues fun outputs =>
    outputs.map (removeFromOutput node.name)

/-! ## The connections of an output -/

def connectionsAt (connections : IConnections) (nodeName : String) (type : NodeConnectionType) (index : Nat) :
    List IConnection :=
  (SparseArray.read (((connections.get? nodeName).bind (·.get? type)).getD []) index).getD []

theorem read_padInputs (inputs : NodeInputConnections) (index other : Nat) :
    (SparseArray.read (padInputs inputs index) other).getD [] = (SparseArray.read inputs other).getD [] := by
  by_cases within : other < inputs.length
  · have inPadded : other < (padInputs inputs index).length := by
      rw [padInputs, List.length_append]
      omega
    rw [SparseArray.read_eq_getElem inPadded, SparseArray.read_eq_getElem within]
    simp only [padInputs]
    rw [List.getElem_append_left within]
  · rw [SparseArray.read_of_length_le (Nat.le_of_not_lt within), Slot.getD_hole]
    by_cases inPadded : other < (padInputs inputs index).length
    · rw [SparseArray.read_eq_getElem inPadded]
      simp only [padInputs]
      rw [List.getElem_append_right (Nat.le_of_not_lt within), List.getElem_replicate, Slot.getD_full]
    · rw [SparseArray.read_of_length_le (Nat.le_of_not_lt inPadded), Slot.getD_hole]

variable {connections : IConnections}

theorem connectionsAt_set {nodeName name : String} {type other : NodeConnectionType} {index position : Nat}
    {nodeConnections : INodeConnections} {outputs : NodeInputConnections} {found : List IConnection}
    (isNode : (connections.get? nodeName).getD ∅ = nodeConnections)
    (sameElsewhere : ∀ position ≠ index, (SparseArray.read outputs position).getD [] =
      connectionsAt connections nodeName type position) (isFound : (SparseArray.read outputs index).getD [] = found) :
    connectionsAt (connections.set nodeName (nodeConnections.set type outputs)) name other position =
      if name = nodeName ∧ other = type ∧ position = index then found
      else connectionsAt connections name other position := by
  by_cases sameNode : name = nodeName
  · subst sameNode
    rw [connectionsAt, OrderedMap.get?_set_self, Option.bind_some]
    by_cases sameType : other = type
    · subst sameType
      rw [OrderedMap.get?_set_self, Option.getD_some]
      by_cases sameIndex : position = index
      · rw [if_pos ⟨rfl, rfl, sameIndex⟩, sameIndex, isFound]
      · rw [if_neg fun same => sameIndex same.2.2, sameElsewhere position sameIndex]
    · rw [OrderedMap.get?_set_of_ne _ _ sameType, if_neg fun same => sameType same.2.1, connectionsAt, ← isNode]
      cases connections.get? name <;> rfl
  · rw [connectionsAt, OrderedMap.get?_set_of_ne _ _ sameNode, if_neg fun same => sameNode same.1, connectionsAt]

theorem connectionsAt_addConnection (connections : IConnections) (sourceData destinationData : IConnection)
    (name : String) (type : NodeConnectionType) (index : Nat) :
    connectionsAt (addConnection connections [sourceData, destinationData]) name type index =
      if (name = sourceData.node ∧ type = sourceData.type ∧ index = sourceData.index) ∧
          destinationData ∉ connectionsAt connections name type index
        then connectionsAt connections name type index ++ [destinationData]
        else connectionsAt connections name type index := by
  let outputs := (((connections.get? sourceData.node).getD ∅).get? sourceData.type).getD []
  have readOutputs : ∀ position, (SparseArray.read outputs position).getD [] =
      connectionsAt connections sourceData.node sourceData.type position := by
    intro position
    simp only [outputs, connectionsAt]
    cases connections.get? sourceData.node <;> rfl
  have readPadded : ∀ position, (SparseArray.read (padInputs outputs sourceData.index) position).getD [] =
      connectionsAt connections sourceData.node sourceData.type position :=
    fun position => (read_padInputs outputs sourceData.index position).trans (readOutputs position)
  let found := connectionsAt connections sourceData.node sourceData.type sourceData.index
  let after := if destinationData ∈ found then found else found ++ [destinationData]
  have isAfter : connectionsAt (addConnection connections [sourceData, destinationData]) name type index =
      if name = sourceData.node ∧ type = sourceData.type ∧ index = sourceData.index then after
        else connectionsAt connections name type index := by
    refine connectionsAt_set rfl (fun position different => ?_) ?_
    · split
      · exact readPadded position
      · rw [SparseArray.read_write, if_neg different]
        exact readPadded position
    · by_cases exists' : destinationData ∈ found
      · have isThere : ((SparseArray.read (padInputs outputs sourceData.index) sourceData.index).getD []).any
            (· = destinationData) = true := by
          rw [readPadded]
          simpa using exists'
        rw [if_pos isThere]
        simp only [after, if_pos exists']
        exact readPadded sourceData.index
      · have isNew : ((SparseArray.read (padInputs outputs sourceData.index) sourceData.index).getD []).any
            (· = destinationData) = false := by
          rw [readPadded, List.any_eq_false]
          intro other member same
          exact exists' (of_decide_eq_true same ▸ member)
        rw [isNew, if_neg Bool.false_ne_true, SparseArray.read_write, if_pos rfl, Slot.getD_full]
        simp only [after, if_neg exists']
        rw [readPadded]
  rw [isAfter]
  by_cases atSource : name = sourceData.node ∧ type = sourceData.type ∧ index = sourceData.index
  · obtain ⟨rfl, rfl, rfl⟩ := atSource
    simp only [true_and, and_self, if_true, after, found]
    by_cases isThere : destinationData ∈ connectionsAt connections sourceData.node sourceData.type sourceData.index
    · rw [if_pos isThere, if_neg (not_not_intro isThere)]
    · rw [if_neg isThere, if_pos isThere]
  · rw [if_neg atSource, if_neg fun holds => atSource holds.1]

/-- A list without duplicates has at most one item that is equal to another. -/
theorem countP_eq_le_one {α : Type} [DecidableEq α] {items : List α} (nodup : items.Nodup) (item : α) :
    items.countP (fun other => other = item) ≤ 1 := by
  have sameCount : items.countP (fun other => other = item) = items.count item := by
    rw [List.count]
    exact List.countP_congr fun other _ => by simp
  rw [sameCount]
  exact List.nodup_iff_count_le_one.mp nodup item

theorem connectionsAt_removeConnection {sourceData destinationData : IConnection}
    (nodup : (connectionsAt connections sourceData.node sourceData.type sourceData.index).Nodup) (name : String)
    (type : NodeConnectionType) (index : Nat) :
    connectionsAt (removeConnection connections sourceData destinationData) name type index =
      if name = sourceData.node ∧ type = sourceData.type ∧ index = sourceData.index
        then (connectionsAt connections name type index).filter fun connection => !(connection = destinationData : Bool)
        else connectionsAt connections name type index := by
  -- where there is no list nothing is removed
  have unchanged : connectionsAt connections sourceData.node sourceData.type sourceData.index = [] →
      connectionsAt connections name type index =
        if name = sourceData.node ∧ type = sourceData.type ∧ index = sourceData.index
          then (connectionsAt connections name type index).filter fun connection =>
            !(connection = destinationData : Bool)
          else connectionsAt connections name type index := by
    intro isEmpty
    split
    · rename_i atSource
      obtain ⟨rfl, rfl, rfl⟩ := atSource
      rw [isEmpty]
      rfl
    · rfl
  rw [removeConnection]
  split
  · rename_i noNode
    exact unchanged (by simp [connectionsAt, noNode])
  rename_i nodeConnections isNode
  split
  · rename_i noType
    exact unchanged (by simp [connectionsAt, isNode, noType])
  rename_i outputs isOutputs
  have readOutputs : ∀ position, connectionsAt connections sourceData.node sourceData.type position =
      (SparseArray.read outputs position).getD [] := by
    intro position
    rw [connectionsAt, isNode, Option.bind_some, isOutputs, Option.getD_some]
  split
  · rename_i short
    exact unchanged (by rw [readOutputs, SparseArray.read_of_length_le (by omega), Slot.getD_hole])
  split
  · rename_i found isFound
    have isList : connectionsAt connections sourceData.node sourceData.type sourceData.index = found := by
      rw [readOutputs, isFound, Slot.getD_full]
    rw [isList] at nodup
    have isSet : connectionsAt (connections.set sourceData.node (nodeConnections.set sourceData.type
        (SparseArray.write outputs sourceData.index (.full (Positions.eraseVisited
          (fun connection => connection = destinationData) (List.range found.length) found))))) name type index =
        if name = sourceData.node ∧ type = sourceData.type ∧ index = sourceData.index
          then found.filter fun connection => !(connection = destinationData : Bool)
          else connectionsAt connections name type index := by
      refine connectionsAt_set (by rw [isNode, Option.getD_some]) (fun position different => ?_) ?_
      · rw [SparseArray.read_write, if_neg different, readOutputs]
      · rw [SparseArray.read_write, if_pos rfl, Slot.getD_full]
        exact Positions.eraseVisited_of_le_one (countP_eq_le_one nodup destinationData)
    rw [isSet]
    by_cases atSource : name = sourceData.node ∧ type = sourceData.type ∧ index = sourceData.index
    · rw [if_pos atSource, if_pos atSource, atSource.1, atSource.2.1, atSource.2.2, isList]
    · rw [if_neg atSource, if_neg atSource]
  · rename_i noList
    refine unchanged ?_
    rw [readOutputs]
    cases slot : SparseArray.read outputs sourceData.index with
    | hole => rfl
    | null => rfl
    | full found => exact absurd slot (noList found)

theorem connectionsAt_removeAllNodeConnection (connections : IConnections) (node : INode)
    (preserveInputConnections preserveOutputConnections : Bool) (name : String) (type : NodeConnectionType)
    (index : Nat) :
    connectionsAt (removeAllNodeConnection connections node preserveInputConnections preserveOutputConnections)
        name type index =
      if preserveOutputConnections = false ∧ name = node.name then []
      else if preserveInputConnections then connectionsAt connections name type index
      else Positions.eraseEach (Positions.collect (fun connection => connection.node = node.name)
        (connectionsAt connections name type index)) (connectionsAt connections name type index) := by
  let kept := if preserveOutputConnections then connections else connections.erase node.name
  have isKept : connectionsAt kept name type index =
      if preserveOutputConnections = false ∧ name = node.name then []
      else connectionsAt connections name type index := by
    cases preserveOutputConnections with
    | true => rfl
    | false =>
      by_cases same : name = node.name
      · subst same
        rw [if_pos ⟨rfl, rfl⟩]
        simp [kept, connectionsAt]
      · rw [if_neg fun holds => same holds.2, connectionsAt, connectionsAt]
        simp only [kept, Bool.false_eq_true, if_false]
        rw [OrderedMap.get?_erase_of_ne _ same]
  cases preserveInputConnections with
  | true =>
    rw [removeAllNodeConnection]
    exact isKept
  | false =>
    have removed : connectionsAt (removeAllNodeConnection connections node false preserveOutputConnections)
        name type index =
          Positions.eraseEach (Positions.collect (fun connection => connection.node = node.name)
            (connectionsAt kept name type index)) (connectionsAt kept name type index) := by
      have atSlot : ∀ slot, (removeFromOutput node.name slot).getD [] = Positions.eraseEach
          (Positions.collect (fun connection => connection.node = node.name) (slot.getD [])) (slot.getD []) := by
        intro slot
        cases slot <;> rfl
      rw [removeAllNodeConnection, connectionsAt, connectionsAt]
      simp only [Bool.false_eq_true, if_false]
      rw [OrderedMap.get?_mapValues, ← atSlot]
      show (SparseArray.read (((kept.get? name).map _).bind _ |>.getD []) index).getD [] = _
      cases kept.get? name with
      | none => rfl
      | some nodeConnections =>
        rw [Option.map_some, Option.bind_some, Option.bind_some, OrderedMap.get?_mapValues]
        cases nodeConnections.get? type with
        | none => rfl
        | some outputs => rw [Option.map_some, Option.getD_some, Option.getD_some, SparseArray.read_map rfl]
    rw [removed, isKept]
    split
    · rfl
    · rfl

/-! ## The set of edges -/

/-- A connection with the output it starts at. -/
structure Edge where
  sourceNode : String
  sourceType : NodeConnectionType
  sourceIndex : Nat
  destination : IConnection
deriving DecidableEq

def edges (connections : IConnections) : Set Edge :=
  {edge | edge.destination ∈ connectionsAt connections edge.sourceNode edge.sourceType edge.sourceIndex}

/-- No output has the same connection twice. -/
def NoDuplicates (connections : IConnections) : Prop :=
  ∀ nodeName type index, (connectionsAt connections nodeName type index).Nodup

/-- A call of the store. -/
inductive Operation where
  | addConnection (connection : List IConnection)
  | removeConnection (sourceData destinationData : IConnection)
  | removeAllNodeConnection (node : INode) (preserveInputConnections preserveOutputConnections : Bool)

def perform (connections : IConnections) : Operation → IConnections
  | .addConnection connection => addConnection connections connection
  | .removeConnection sourceData destinationData => removeConnection connections sourceData destinationData
  | .removeAllNodeConnection node preserveInputConnections preserveOutputConnections =>
    removeAllNodeConnection connections node preserveInputConnections preserveOutputConnections

theorem NoDuplicates.perform (noDuplicates : NoDuplicates connections) (operation : Operation) :
    NoDuplicates (perform connections operation) := by
  intro nodeName type index
  have before := noDuplicates nodeName type index
  cases operation with
  | addConnection connection =>
    match connection with
    | [] => exact before
    | [_] => exact before
    | _ :: _ :: _ :: _ => exact before
    | [sourceData, destinationData] =>
      rw [WorkflowsStore.perform, connectionsAt_addConnection]
      split
      · rename_i holds
        exact List.nodup_append.mpr ⟨before, List.nodup_singleton _, fun connection member other isOther same =>
          holds.2 (List.mem_singleton.mp isOther ▸ same ▸ member)⟩
      · exact before
  | removeConnection sourceData destinationData =>
    rw [WorkflowsStore.perform, connectionsAt_removeConnection (noDuplicates _ _ _)]
    split
    · exact before.filter _
    · exact before
  | removeAllNodeConnection node preserveInputConnections preserveOutputConnections =>
    rw [WorkflowsStore.perform, connectionsAt_removeAllNodeConnection]
    split
    · exact List.nodup_nil
    · split
      · exact before
      · exact before.sublist (Positions.eraseEach_sublist _ _)

namespace Duplicated

/-- Both inputs of `merge` are connected to the only output of `set`. -/
def set : INode := { id := "1", name := "set", type := "set" }
def merge : INode := { id := "2", name := "merge", type := "merge" }

def output : IConnection := ⟨"set", .main, 0⟩
def firstInput : IConnection := ⟨"merge", .main, 0⟩
def secondInput : IConnection := ⟨"merge", .main, 1⟩

def operations : List Operation :=
  [.addConnection [output, firstInput], .removeAllNodeConnection merge false false,
    .addConnection [output, secondInput], .removeConnection output secondInput]

end Duplicated

end N8n.WorkflowsStore
