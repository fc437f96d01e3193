import N8n.Library.PathCollection
import N8n.Workflow.SearchNodesBFS

/-! # The nodes connected to a node

`getConnectedNodes` of `Workflow.ts`, with unlimited depth
and all its connection types; `getParentNodes` and `getChildNodes` run it over
the two connection tables.
-/

namespace N8n

/-- The parameter `connectionType`. -/
inductive ConnectionTypes where
  | only (type : NodeConnectionType)
  | all
  | allNonMain
deriving DecidableEq, Repr

def ConnectionTypes.types (connectionType : ConnectionTypes) (nodeConnections : INodeConnections) :
    List NodeConnectionType :=
  match connectionType with
  | .only type => [type]
  | .all => nodeConnections.keys
  | .allNonMain => nodeConnections.keys.filter (· ≠ .main)

/-- The recursion; nothing if the fuel does not last. -/
def getConnectedNodesOf (connections : IConnections) (connectionType : ConnectionTypes) :
    Nat → String → List String → Option (List String)
  | 0, _, _ => none
  | fuel + 1, nodeName, checkedNodesIncoming =>
    match connections.get? nodeName with
    | none => some []
    | some nodeConnections =>
      (connectionType.types nodeConnections).foldlM (fun returnNodes type =>
        match nodeConnections.get? type with
        | none => some returnNodes
        | some connectionsByIndex =>
          if nodeName ∈ checkedNodesIncoming then some returnNodes
          else
            let checkedNodes := checkedNodesIncoming ++ [nodeName]
            (connectionsByIndex.flatMap (·.getD [])).foldlM (fun returnNodes connection =>
              if connection.node ∈ checkedNodes then some returnNodes
              else (getConnectedNodesOf connections connectionType fuel connection.node checkedNodes).map
                (mergeParents (connection.node :: returnNodes))) returnNodes) []

namespace Workflow

def getParentNodesOf (workflow : Workflow) (nodeName : String) (type : ConnectionTypes) (fuel : Nat) :
    Option (List String) :=
  getConnectedNodesOf workflow.connectionsByDestinationNode type fuel nodeName []

def getChildNodesOf (workflow : Workflow) (nodeName : String) (type : ConnectionTypes) (fuel : Nat) :
    Option (List String) :=
  getConnectedNodesOf workflow.connectionsBySourceNode type fuel nodeName []

end Workflow

/-! ## The connections of the types as a graph -/

/-- The nodes that the connections of a node name, in the order of the loops. -/
def connectedNames (connections : IConnections) (connectionType : ConnectionTypes) (nodeName : String) :
    List String :=
  match connections.get? nodeName with
  | none => []
  | some nodeConnections =>
    ((connectionType.types nodeConnections).flatMap fun type =>
      connectionsOf connections nodeName type).map (·.node)

theorem mem_keys_of_connectedNames {connections : IConnections} {connectionType : ConnectionTypes}
    {nodeName : String} (some : connectedNames connections connectionType nodeName ≠ []) :
    nodeName ∈ connections.keys := by
  rw [connectedNames] at some
  cases found : connections.get? nodeName with
  | none => simp [found] at some
  | some nodeConnections => exact OrderedMap.mem_keys_of_get? found

theorem foldlM_flatMap_some {α β σ : Type} (turn : σ → β → Option σ) (inner : α → List β) (items : List α)
    (state : σ) :
    items.foldlM (fun state item => (inner item).foldlM turn state) state =
      (items.flatMap inner).foldlM turn state := by
  induction items generalizing state with
  | nil => rfl
  | cons first rest ih =>
    rw [List.flatMap_cons, List.foldlM_append, List.foldlM_cons]
    simp only [ih]

theorem foldlM_const {α σ : Type} {turn : σ → α → Option σ} (same : ∀ state item, turn state item = some state)
    (items : List α) (state : σ) : items.foldlM turn state = some state := by
  induction items with
  | nil => rfl
  | cons first rest ih => rwa [List.foldlM_cons, same, Option.bind_eq_bind, Option.bind_some]

/-- The recursion is the collection of the nodes of all branches. -/
theorem getConnectedNodesOf_eq_collect (connections : IConnections) (connectionType : ConnectionTypes) (fuel : Nat) :
    ∀ nodeName checkedNodes, getConnectedNodesOf connections connectionType fuel nodeName checkedNodes =
      PathCollection.collect (connectedNames connections connectionType) fuel nodeName checkedNodes := by
  induction fuel with
  | zero => exact fun _ _ => rfl
  | succ fuel ih =>
    intro nodeName checkedNodes
    rw [PathCollection.collect_succ, getConnectedNodesOf, connectedNames]
    cases found : connections.get? nodeName with
    | none => simp
    | some nodeConnections =>
      by_cases isChecked : nodeName ∈ checkedNodes
      · rw [if_pos isChecked]
        apply foldlM_const
        intro returnNodes type
        split
        · rfl
        · exact if_pos isChecked
      · rw [if_neg isChecked, List.foldlM_map, ← foldlM_flatMap_some]
        dsimp only
        congr 1
        funext returnNodes type
        rw [connectionsOf, found, Option.bind_some]
        split
        · rename_i untyped
          rw [untyped]
          rfl
        · rename_i connectionsByIndex typed
          rw [typed, Option.getD_some, if_neg isChecked]
          congr 1
          funext returnNodes connection
          rw [PathCollection.gather, ← ih]
          rfl

theorem foldl_of_foldlM {α σ : Type} {turn : σ → α → Option σ} {total : σ → α → σ}
    (agrees : ∀ state item next, turn state item = some next → total state item = next) {items : List α}
    {state final : σ} (returns : items.foldlM turn state = some final) : items.foldl total state = final := by
  induction items generalizing state with
  | nil => exact Option.some.inj returns
  | cons first rest ih =>
    rw [List.foldlM_cons] at returns
    obtain ⟨next, turned, further⟩ := Option.bind_eq_some_iff.mp returns
    rw [List.foldl_cons, agrees state first next turned]
    exact ih further

/-- A call that returns agrees with the recursion on one type that carries no types. -/
theorem getConnectedNodes_of_only {connections : IConnections} {type : NodeConnectionType} (fuel : Nat) :
    ∀ nodeName checkedNodes returnNodes,
      getConnectedNodesOf connections (.only type) fuel nodeName checkedNodes = some returnNodes →
        getConnectedNodes connections type fuel nodeName checkedNodes = returnNodes := by
  induction fuel with
  | zero =>
    intro _ _ _ returns
    cases returns
  | succ fuel ih =>
    intro nodeName checkedNodes returnNodes returns
    rw [getConnectedNodesOf] at returns
    rw [getConnectedNodes]
    cases found : connections.get? nodeName with
    | none =>
      rw [found] at returns
      exact Option.some.inj returns
    | some nodeConnections =>
      rw [found] at returns
      simp only [ConnectionTypes.types, List.foldlM_cons, List.foldlM_nil, Option.bind_eq_bind,
        Option.pure_def, Option.bind_fun_some] at returns
      rw [Option.bind_some]
      cases typed : nodeConnections.get? type with
      | none =>
        rw [typed] at returns
        exact Option.some.inj returns
      | some connectionsByIndex =>
        rw [typed] at returns
        dsimp only at returns ⊢
        split at returns
        · rename_i isChecked
          rw [if_pos isChecked]
          exact Option.some.inj returns
        · rename_i unchecked
          rw [if_neg unchecked]
          apply foldl_of_foldlM _ returns
          intro found connection next turn
          split at turn
          · rename_i isChecked
            rw [if_pos isChecked]
            exact Option.some.inj turn
          · rename_i unchecked
            rw [if_neg unchecked]
            obtain ⟨nodes, called, merged⟩ := Option.map_eq_some_iff.mp turn
            rw [ih _ _ _ called]
            exact merged

/-! ## What the caller gets -/

section

variable (connections : IConnections) (connectionType : ConnectionTypes)

def LeadsTo (nodeName next : String) : Prop := next ∈ connectedNames connections connectionType nodeName

/-- Along connections of the types, without passing the node itself again. -/
def LeadsAround (nodeName : String) : String → String → Prop :=
  Relation.ReflTransGen fun first second => LeadsTo connections connectionType first second ∧ second ≠ nodeName

/-- The other nodes that the connections lead to, each once, and without cycles behind all their own ancestors. -/
structure IsClosure (nodeName : String) (returnNodes : List String) : Prop where
  mem : ∀ name, name ∈ returnNodes ↔
    name ≠ nodeName ∧ Relation.TransGen (LeadsTo connections connectionType) nodeName name
  once : returnNodes.Nodup
  ordered : (∀ name, ¬ Relation.TransGen (LeadsTo connections connectionType) name name) →
    ∀ before name after, returnNodes = before ++ name :: after →
      ∀ ancestor, Relation.TransGen (LeadsTo connections connectionType) name ancestor → ancestor ∈ before

/-- No connection of the node names a node that was found before: that an earlier connection names, or that can be
reached from there without passing the node itself. -/
def NamesOnlyNew (nodeName : String) : Prop :=
  ((connectedNames connections connectionType nodeName).filter (· ≠ nodeName)).Pairwise
    fun earlier later => ¬ LeadsAround connections connectionType nodeName earlier later

variable {connections connectionType}

theorem before_of_supplied {nodes before after : List String} {name : String} {front : List String}
    (supplied : PathCollection.Supplied (connectedNames connections connectionType) front nodes)
    (split : nodes = before ++ name :: after) {ancestor : String}
    (leads : Relation.TransGen (LeadsTo connections connectionType) name ancestor) :
    ancestor ∈ front ∨ ancestor ∈ before := by
  induction before generalizing nodes front with
  | nil =>
    subst split
    exact .inl (supplied.1 ancestor leads)
  | cons first before ih =>
    subst split
    cases ih supplied.2 rfl with
    | inl inFront =>
      cases List.mem_cons.mp inFront with
      | inl isFirst => exact .inr (isFirst ▸ List.mem_cons_self)
      | inr older => exact .inl older
    | inr inBefore => exact .inr (List.mem_cons_of_mem _ inBefore)

variable (connections connectionType) in
/-- The call returns for every graph, and exactly the nodes that can be reached; it returns them as claimed if and
only if the node names no node that was found before. -/
theorem getConnectedNodesOf_isClosure_iff (nodeName : String) {fuel : Nat} (enough : connections.size + 1 ≤ fuel) :
    ∃ returnNodes, getConnectedNodesOf connections connectionType fuel nodeName [] = some returnNodes ∧
      (IsClosure connections connectionType nodeName returnNodes ↔
        NamesOnlyNew connections connectionType nodeName) := by
  have bounded : (Traversal.unmarked connections.keys []).length < fuel := by
    rw [Traversal.unmarked_nil, OrderedMap.length_keys]
    omega
  obtain ⟨returnNodes, collected⟩ : ∃ nodes,
      PathCollection.collect (connectedNames connections connectionType) fuel nodeName [] = some nodes :=
    PathCollection.collect_returns (fun _ some => mem_keys_of_connectedNames some) bounded
  refine ⟨returnNodes, by rw [getConnectedNodesOf_eq_collect, collected], ?_⟩
  have reaches : ∀ name, name ∈ returnNodes ↔
      name ≠ nodeName ∧ Relation.TransGen (LeadsTo connections connectionType) nodeName name := by
    intro name
    rw [PathCollection.mem_collect List.not_mem_nil collected]
    have unseen : PathCollection.Onward (connectedNames connections connectionType) [] =
        LeadsTo connections connectionType := by
      funext first second
      simp [PathCollection.Onward, LeadsTo]
    rw [PathCollection.Reaches, unseen, Relation.reflTransGen_iff_eq_or_transGen]
    tauto
  have ordered : (∀ name, ¬ Relation.TransGen (LeadsTo connections connectionType) name name) →
      ∀ before name after, returnNodes = before ++ name :: after →
        ∀ ancestor, Relation.TransGen (LeadsTo connections connectionType) name ancestor → ancestor ∈ before := by
    intro acyclic before name after split ancestor leads
    have supplied := PathCollection.supplied_collect acyclic (fun _ inside => absurd inside List.not_mem_nil) collected
    exact (before_of_supplied supplied split leads).resolve_left List.not_mem_nil
  have onward : PathCollection.Reaches (connectedNames connections connectionType) [nodeName] =
      LeadsAround connections connectionType nodeName := by
    have step : PathCollection.Onward (connectedNames connections connectionType) [nodeName] =
        fun first second => LeadsTo connections connectionType first second ∧ second ≠ nodeName := by
      funext first second
      simp [PathCollection.Onward, LeadsTo]
    rw [PathCollection.Reaches, step]
    rfl
  rw [NamesOnlyNew, ← onward, ← PathCollection.nodup_collect_iff collected]
  exact ⟨fun closure => closure.once, fun once => ⟨reaches, once, ordered⟩⟩

end

/-- The parents and the children of a node are listed as claimed if and only if the table at hand has no connection
of the node to a node that was found before. -/
theorem Workflow.parents_children_isClosure_iff (workflow : Workflow) (nodeName : String) (type : ConnectionTypes)
    {fuel : Nat} (enough : workflow.connectionsByDestinationNode.size + 1 ≤ fuel ∧
      workflow.connectionsBySourceNode.size + 1 ≤ fuel) :
    (∃ parents, workflow.getParentNodesOf nodeName type fuel = some parents ∧
      (IsClosure workflow.connectionsByDestinationNode type nodeName parents ↔
        NamesOnlyNew workflow.connectionsByDestinationNode type nodeName)) ∧
    ∃ children, workflow.getChildNodesOf nodeName type fuel = some children ∧
      (IsClosure workflow.connectionsBySourceNode type nodeName children ↔
        NamesOnlyNew workflow.connectionsBySourceNode type nodeName) :=
  ⟨getConnectedNodesOf_isClosure_iff _ type nodeName enough.1,
    getConnectedNodesOf_isClosure_iff _ type nodeName enough.2⟩

/-! A node that is connected to two inputs of another one, and one that is connected to one. -/

namespace ParallelConnections

def connection (node : String) (index : Nat) : IConnection := { node, type := .main, index }

def workflow (outputs : List IConnection) : Workflow :=
  Workflow.new [] ((∅ : IConnections).set "source" ((∅ : INodeConnections).set .main [.full outputs])) {}

def parallel : Workflow := workflow [connection "target" 0, connection "target" 1]

def single : Workflow := workflow [connection "target" 0]

theorem source_twice :
    parallel.getParentNodesOf "target" (.only .main) 2 = some ["source", "source"] ∧
      ¬ IsClosure parallel.connectionsByDestinationNode (.only .main) "target" ["source", "source"] :=
  ⟨by decide, fun closure => absurd closure.once (by decide)⟩

theorem source_once :
    ∃ parents, single.getParentNodesOf "target" (.only .main) 2 = some parents ∧
      IsClosure single.connectionsByDestinationNode (.only .main) "target" parents := by
  have enough : single.connectionsByDestinationNode.size + 1 ≤ 2 ∧ single.connectionsBySourceNode.size + 1 ≤ 2 := by
    decide
  obtain ⟨parents, returns, isClosure⟩ :=
    (single.parents_children_isClosure_iff "target" (.only .main) enough).1
  refine ⟨parents, returns, isClosure.mpr ?_⟩
  have names : (connectedNames single.connectionsByDestinationNode (.only .main) "target").filter (· ≠ "target") =
      ["source"] := by decide
  rw [NamesOnlyNew, names]
  exact List.pairwise_singleton _ _

end ParallelConnections

end N8n
