import N8n.Library.FirstRoute
import N8n.Workflow.ConnectionIndexes
import N8n.Workflow.SearchNodesBFS

/-! # How a node is connected with a parent node

`getNodeConnectionIndexes` of `Workflow.ts`, with
unlimited depth: a depth-first search against the connections, with one list of
checked nodes for all branches.
-/

namespace N8n

structure INodeConnection where
  sourceIndex : Nat
  destinationIndex : Nat
deriving DecidableEq, Repr

/-- The two loops over the inputs: every connection with its place in the list of its input, which the inner loop
counts as `destinationIndex`. -/
def placedConnections (connectionsByIndex : NodeInputConnections) : List (IConnection × Nat) :=
  connectionsByIndex.flatMap fun connections => (connections.getD []).zipIdx

/-- The body of the loops; `getIndexes` is the recursive call. -/
def checkConnections (parentNodeName : String)
    (getIndexes : String → List String → Option (Option INodeConnection × List String)) :
    List (IConnection × Nat) → List String → Option (Option INodeConnection × List String)
  | [], checkedNodes => some (none, checkedNodes)
  | (connection, destinationIndex) :: further, checkedNodes =>
    if parentNodeName = connection.node then
      some (some { sourceIndex := connection.index, destinationIndex }, checkedNodes)
    else if connection.node ∈ checkedNodes then checkConnections parentNodeName getIndexes further checkedNodes
    else
      match getIndexes connection.node checkedNodes with
      | none => none
      | some (some outputIndex, checkedNodes) => some (some outputIndex, checkedNodes)
      | some (none, checkedNodes) => checkConnections parentNodeName getIndexes further checkedNodes

namespace Workflow

/-- With the checked nodes after the call; nothing if the fuel does not last. -/
def getNodeConnectionIndexesFrom (workflow : Workflow) (parentNodeName : String) (type : NodeConnectionType) :
    Nat → String → List String → Option (Option INodeConnection × List String)
  | 0, _, _ => none
  | fuel + 1, nodeName, checkedNodes =>
    match workflow.getNode parentNodeName with
    | none => some (none, checkedNodes)
    | some _ =>
      match workflow.connectionsByDestinationNode.get? nodeName with
      | none => some (none, checkedNodes)
      | some nodeConnections =>
        match nodeConnections.get? type with
        | none => some (none, checkedNodes)
        | some connectionsByIndex =>
          if nodeName ∈ checkedNodes then some (none, checkedNodes)
          else
            checkConnections parentNodeName (getNodeConnectionIndexesFrom workflow parentNodeName type fuel)
              (placedConnections connectionsByIndex) (checkedNodes ++ [nodeName])

def getNodeConnectionIndexes (workflow : Workflow) (nodeName parentNodeName : String) (type : NodeConnectionType)
    (fuel : Nat) : Option (Option INodeConnection) :=
  (workflow.getNodeConnectionIndexesFrom parentNodeName type fuel nodeName []).map (·.1)

/-! ## The search for a route -/

def placedInputs (workflow : Workflow) (type : NodeConnectionType) (nodeName : String) :
    Option (List (IConnection × Nat)) :=
  ((workflow.connectionsByDestinationNode.get? nodeName).bind (·.get? type)).map placedConnections

def indexesOf (placed : IConnection × Nat) : INodeConnection :=
  { sourceIndex := placed.1.index, destinationIndex := placed.2 }

theorem checkConnections_eq_scan {parentNodeName : String}
    {getIndexes : String → List String → Option (Option INodeConnection × List String)}
    {call : String → List String → Option (Option (IConnection × Nat) × List String)}
    (same : ∀ nodeName checkedNodes, getIndexes nodeName checkedNodes =
      (call nodeName checkedNodes).map fun outcome => (outcome.1.map indexesOf, outcome.2))
    (placed : List (IConnection × Nat)) (checkedNodes : List String) :
    checkConnections parentNodeName getIndexes placed checkedNodes =
      (FirstRoute.scan (·.1.node) parentNodeName call placed checkedNodes).map fun outcome =>
        (outcome.1.map indexesOf, outcome.2) := by
  induction placed generalizing checkedNodes with
  | nil => rfl
  | cons first further ih =>
    obtain ⟨connection, destinationIndex⟩ := first
    rw [checkConnections, FirstRoute.scan]
    by_cases isParent : parentNodeName = connection.node
    · rw [if_pos isParent, if_pos isParent.symm]
      rfl
    · have notGoal : ¬ (connection, destinationIndex).1.node = parentNodeName :=
        fun isParent' => isParent (Eq.symm isParent')
      rw [if_neg isParent, if_neg notGoal]
      by_cases isChecked : connection.node ∈ checkedNodes
      · rw [if_pos isChecked, if_pos isChecked, ih]
      · rw [if_neg isChecked, if_neg isChecked, same]
        cases call connection.node checkedNodes with
        | none => rfl
        | some outcome =>
          obtain ⟨result, between⟩ := outcome
          cases result with
          | none => exact ih between
          | some found => rfl

theorem getNodeConnectionIndexesFrom_eq_search {workflow : Workflow} {parentNodeName : String}
    (isNode : (workflow.getNode parentNodeName).isSome) (type : NodeConnectionType) (fuel : Nat) :
    ∀ nodeName checkedNodes, workflow.getNodeConnectionIndexesFrom parentNodeName type fuel nodeName checkedNodes =
      (FirstRoute.search (workflow.placedInputs type) (·.1.node) parentNodeName fuel nodeName checkedNodes).map
        fun outcome => (outcome.1.map indexesOf, outcome.2) := by
  obtain ⟨parent, found⟩ := Option.isSome_iff_exists.mp isNode
  induction fuel with
  | zero => exact fun _ _ => rfl
  | succ fuel ih =>
    intro nodeName checkedNodes
    rw [getNodeConnectionIndexesFrom, found, FirstRoute.search, placedInputs]
    cases listed : workflow.connectionsByDestinationNode.get? nodeName with
    | none => rfl
    | some nodeConnections =>
      cases typed : nodeConnections.get? type with
      | none => simp [typed]
      | some connectionsByIndex =>
        simp only [Option.bind_some, typed, Option.map_some]
        split
        · rfl
        · exact checkConnections_eq_scan ih _ _

/-! ## What the caller gets -/

/-- A connection of the type at an input of the node comes from the parent. -/
def HasParent (workflow : Workflow) (type : NodeConnectionType) (nodeName parent : String) : Prop :=
  ∃ connection ∈ connectionsOf workflow.connectionsByDestinationNode nodeName type, connection.node = parent

/-- The parent is connected, from the output of the one index to the input of the other, with the node or one of its
ancestors. -/
def IsConnection (workflow : Workflow) (type : NodeConnectionType) (nodeName parentNodeName : String)
    (indexes : INodeConnection) : Prop :=
  ∃ child, Relation.ReflTransGen (workflow.HasParent type) nodeName child ∧
    ∃ connection ∈ connectionsAt workflow.connectionsByDestinationNode child type indexes.destinationIndex,
      connection.node = parentNodeName ∧ connection.index = indexes.sourceIndex

/-- A result for exactly the ancestors, and then the indexes of a connection. -/
structure IsAnswer (workflow : Workflow) (type : NodeConnectionType) (nodeName parentNodeName : String)
    (result : Option INodeConnection) : Prop where
  isSome : result.isSome ↔ Relation.TransGen (workflow.HasParent type) nodeName parentNodeName
  indexes : ∀ indexes, result = some indexes → workflow.IsConnection type nodeName parentNodeName indexes

/-- The connection at the end of the first route from the node: it goes over the first connection that comes from
the parent, or from a node that the parent can be reached from without passing the route again. -/
def FirstConnection (workflow : Workflow) (type : NodeConnectionType) (nodeName parentNodeName : String)
    (placed : IConnection × Nat) : Prop :=
  FirstRoute.Route (workflow.placedInputs type) (·.1.node) parentNodeName [] nodeName placed

theorem mem_placedInputs {workflow : Workflow} {type : NodeConnectionType} {nodeName : String}
    {connection : IConnection} :
    (∃ outgoing, workflow.placedInputs type nodeName = some outgoing ∧ ∃ placed ∈ outgoing, placed.1 = connection) ↔
      connection ∈ connectionsOf workflow.connectionsByDestinationNode nodeName type := by
  rw [placedInputs, connectionsOf]
  cases (workflow.connectionsByDestinationNode.get? nodeName).bind (·.get? type) with
  | none => simp
  | some connectionsByIndex =>
    simp only [Option.map_some, Option.some.injEq, exists_eq_left', Option.getD_some, placedConnections,
      List.mem_flatMap]
    constructor
    · intro placed
      obtain ⟨⟨_, destinationIndex⟩, ⟨connections, listed, member⟩, rfl⟩ := placed
      exact ⟨connections, listed, List.fst_mem_of_mem_zipIdx member⟩
    · intro member
      obtain ⟨connections, listed, member⟩ := member
      obtain ⟨place, isPlace, same⟩ := List.getElem_of_mem member
      exact ⟨(connection, place), ⟨connections, listed, List.mem_zipIdx_iff_getElem?.mpr
        (List.getElem?_eq_some_iff.mpr ⟨isPlace, same⟩)⟩, rfl⟩

/-- The search returns for every workflow, and finds a result exactly for the ancestors; the two indexes are those of
a connection if and only if this holds for the place of the first connection. -/
theorem getNodeConnectionIndexes_isAnswer_iff (workflow : Workflow) (type : NodeConnectionType)
    (nodeName : String) {parentNodeName : String} (isNode : (workflow.getNode parentNodeName).isSome) {fuel : Nat}
    (enough : workflow.connectionsByDestinationNode.size + 1 ≤ fuel) :
    ∃ result, workflow.getNodeConnectionIndexes nodeName parentNodeName type fuel = some result ∧
      (workflow.IsAnswer type nodeName parentNodeName result ↔
        ∀ placed, workflow.FirstConnection type nodeName parentNodeName placed →
          workflow.IsConnection type nodeName parentNodeName (indexesOf placed)) := by
  have inPool : ∀ nodeName outgoing, workflow.placedInputs type nodeName = some outgoing →
      nodeName ∈ workflow.connectionsByDestinationNode.keys := by
    intro nodeName outgoing listed
    obtain ⟨inputs, isListed, _⟩ := Option.map_eq_some_iff.mp listed
    exact OrderedMap.mem_keys_of_bind isListed
  have bounded : (Traversal.unmarked workflow.connectionsByDestinationNode.keys []).length < fuel := by
    rw [Traversal.unmarked_nil, OrderedMap.length_keys]
    omega
  obtain ⟨⟨result, checkedNodes⟩, searched⟩ : ∃ outcome, FirstRoute.search (workflow.placedInputs type) (·.1.node)
      parentNodeName fuel nodeName [] = some outcome := FirstRoute.search_returns inPool fuel nodeName [] bounded
  obtain ⟨isRoute, isSome⟩ := FirstRoute.search_root searched
  have ancestor : (result.map indexesOf).isSome ↔
      Relation.TransGen (workflow.HasParent type) nodeName parentNodeName := by
    have steps : (fun nodeName parent => ∃ outgoing, workflow.placedInputs type nodeName = some outgoing ∧
        ∃ placed ∈ outgoing, placed.1.node = parent) = workflow.HasParent type := by
      funext nodeName parent
      simp only [HasParent, ← mem_placedInputs, eq_iff_iff]
      constructor
      · intro step
        obtain ⟨outgoing, listed, placed, member, isParent⟩ := step
        exact ⟨placed.1, ⟨outgoing, listed, placed, member, rfl⟩, isParent⟩
      · intro step
        obtain ⟨_, ⟨outgoing, listed, placed, member, rfl⟩, isParent⟩ := step
        exact ⟨outgoing, listed, placed, member, isParent⟩
    rw [Option.isSome_map, isSome, FirstRoute.supplies_nil_iff, steps]
  refine ⟨result.map indexesOf, ?_, ?_⟩
  · rw [getNodeConnectionIndexes, getNodeConnectionIndexesFrom_eq_search isNode, searched]
    rfl
  · constructor
    · intro answer placed route
      apply answer.indexes
      rw [(isRoute placed).mpr route, Option.map_some]
    · intro first
      refine ⟨ancestor, fun indexes isResult => ?_⟩
      obtain ⟨placed, isPlaced, rfl⟩ := Option.map_eq_some_iff.mp isResult
      exact first placed ((isRoute placed).mp isPlaced)

end Workflow

/-! A parent at the second input of a node, and at the first one. -/

namespace SecondInput

def parent : INode := { id := "1", name := "parent", type := "set" }

def child : INode := { id := "2", name := "child", type := "merge" }

def workflow (index : Nat) : Workflow :=
  Workflow.new [parent, child] ((∅ : IConnections).set "parent" ((∅ : INodeConnections).set .main
    [.full [{ node := "child", type := .main, index }]])) {}

def fromParent : IConnection := { node := "parent", type := .main, index := 0 }

theorem inputs_of_second : (workflow 1).connectionsByDestinationNode =
    (∅ : IConnections).set "child" ((∅ : INodeConnections).set .main [.full [], .full [fromParent]]) := by decide

/-- The connection stands first in the list of the second input, and the place is returned as the input. -/
theorem place_is_no_input :
    (workflow 1).getNodeConnectionIndexes "child" "parent" .main 2 =
        some (some { sourceIndex := 0, destinationIndex := 0 }) ∧
      ¬ (workflow 1).IsAnswer .main "child" "parent" (some { sourceIndex := 0, destinationIndex := 0 }) := by
  refine ⟨by decide, fun answer => ?_⟩
  obtain ⟨child, _, connection, member, _⟩ := answer.indexes _ rfl
  have nothing : connectionsAt (workflow 1).connectionsByDestinationNode child .main 0 = [] := by
    rw [inputs_of_second, connectionsAt, OrderedMap.row_set]
    split <;> rfl
  rw [nothing] at member
  cases member

theorem first_input_is_answer :
    ∃ result, (workflow 0).getNodeConnectionIndexes "child" "parent" .main 2 = some result ∧
      (workflow 0).IsAnswer .main "child" "parent" result := by
  obtain ⟨result, returns, isAnswer⟩ := (workflow 0).getNodeConnectionIndexes_isAnswer_iff .main "child"
    (show ((workflow 0).getNode "parent").isSome by decide)
    (show (workflow 0).connectionsByDestinationNode.size + 1 ≤ 2 by decide)
  refine ⟨result, returns, isAnswer.mpr fun placed route => ?_⟩
  have inputs : (workflow 0).placedInputs .main "child" = some [(fromParent, 0)] := by decide
  have isOnly : ∀ outgoing step, (workflow 0).placedInputs .main "child" = some outgoing → step ∈ outgoing →
      step = (fromParent, 0) := by
    intro outgoing step listed member
    obtain rfl := Option.some.inj (inputs.symm.trans listed)
    exact List.mem_singleton.mp member
  cases route with
  | here listed first _ =>
    obtain rfl := isOnly _ _ listed first.mem.1
    exact ⟨"child", .refl, fromParent, by decide, rfl, rfl⟩
  | onward listed first notGoal _ =>
    obtain rfl := isOnly _ _ listed first.mem.1
    exact absurd rfl notGoal

end SecondInput

end N8n
