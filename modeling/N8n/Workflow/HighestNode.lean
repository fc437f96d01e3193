import N8n.Library.DepthFirst
import N8n.Library.SharedSearch
import N8n.Workflow.SearchNodesBFS

/-! # The highest parents of a node

`getHighestNode` of `Workflow.ts`, the recursion
`getHighestNodeFrom`.  Its list of checked nodes is shared by all branches; in
the end it holds the nodes with inputs in depth-first order.
-/

namespace N8n.Workflow

open PathCollection (Reaches)
open SharedSearch (Covered)

variable (workflow : Workflow) (type : NodeConnectionType)

/-- The nodes connected to the inputs of a node, in the order of the loops. -/
def parentNames (nodeName : String) : List String :=
  (connectionsOf workflow.connectionsByDestinationNode nodeName type).map (·.node)

/-- The table has inputs of the type for the node, which may be empty. -/
def HasInputs (nodeName : String) : Prop :=
  ((workflow.connectionsByDestinationNode.get? nodeName).bind (·.get? type)).isSome

instance (nodeName : String) : Decidable (workflow.HasInputs type nodeName) :=
  inferInstanceAs (Decidable (_ = true))

def IsEnabled (nodeName : String) : Prop := ∃ node, workflow.getNode nodeName = some node ∧ node.isDisabled = false

def addNames (returnNodes addNodes : List String) : List String :=
  addNodes.foldl (fun returnNodes name => if name ∈ returnNodes then returnNodes else returnNodes ++ [name]) returnNodes

/-- What is added for a parent: without further parents the node itself, unless it is disabled. -/
def orItself (nodeName : String) (addNodes : List String) : List String :=
  if addNodes.isEmpty && !((workflow.getNode nodeName).map (·.isDisabled)).getD false then [nodeName] else addNodes

/-- The turn of the loop over the connections. -/
def addHighest (fuel : Nat) (state : List String × List String) (connection : IConnection) :
    Except Thrown (List String × List String) :=
  if connection.node ∈ state.2 then .ok state
  else do
    let (addNodes, checkedNodes) ← getHighestNodeFrom workflow type fuel connection.node none state.2
    .ok (addNames state.1 (workflow.orItself connection.node addNodes), checkedNodes)

variable {workflow type}

variable {nodeName : String}

theorem parentNames_of_not_hasInputs (without : ¬ workflow.HasInputs type nodeName) :
    workflow.parentNames type nodeName = [] := by
  rw [parentNames, connectionsOf, Option.not_isSome_iff_eq_none.mp without]
  rfl

variable {fuel : Nat}

theorem getHighestNodeFrom_of_not_hasInputs (without : ¬ workflow.HasInputs type nodeName) {node : INode}
    (found : workflow.getNode nodeName = some node) (checkedNodes : List String) :
    getHighestNodeFrom workflow type (fuel + 1) nodeName none checkedNodes =
      .ok (if node.disabled = some false then [nodeName] else [], checkedNodes) := by
  rw [getHighestNodeFrom, found]
  simp only [Option.not_isSome_iff_eq_none.mp without]

variable {checkedNodes : List String}

theorem getHighestNodeFrom_of_hasInputs (has : workflow.HasInputs type nodeName) {node : INode}
    (found : workflow.getNode nodeName = some node) (unchecked : nodeName ∉ checkedNodes) :
    getHighestNodeFrom workflow type (fuel + 1) nodeName none checkedNodes =
      (connectionsOf workflow.connectionsByDestinationNode nodeName type).foldlM (addHighest workflow type fuel)
        ([], checkedNodes ++ [nodeName]) := by
  obtain ⟨inputs, listed⟩ := Option.isSome_iff_exists.mp has
  rw [getHighestNodeFrom, found, connectionsOf]
  simp only [listed, if_neg unchecked, Option.getD_some]
  rfl

theorem addHighest_ok {returnNodes checkedNodes between checkedBetween : List String} {connection : IConnection}
    (turn : addHighest workflow type fuel (returnNodes, checkedNodes) connection = .ok (between, checkedBetween)) :
    connection.node ∈ checkedNodes ∧ between = returnNodes ∧ checkedBetween = checkedNodes ∨
      connection.node ∉ checkedNodes ∧ ∃ addNodes,
        getHighestNodeFrom workflow type fuel connection.node none checkedNodes = .ok (addNodes, checkedBetween) ∧
          between = addNames returnNodes (workflow.orItself connection.node addNodes) := by
  rw [addHighest] at turn
  split at turn
  · rename_i isChecked
    cases turn
    exact .inl ⟨isChecked, rfl, rfl⟩
  · rename_i unchecked
    obtain ⟨⟨addNodes, _⟩, called, adds⟩ := Loop.bind_inv turn
    cases adds
    exact .inr ⟨unchecked, addNodes, called, rfl⟩

variable {returnNodes checkedNodes : List String}

theorem addHighest_error {connection : IConnection} {error : Thrown}
    (turn : addHighest workflow type fuel (returnNodes, checkedNodes) connection = .error error) :
    connection.node ∉ checkedNodes ∧
      getHighestNodeFrom workflow type fuel connection.node none checkedNodes = .error error := by
  rw [addHighest] at turn
  split at turn
  · cases turn
  · rename_i unchecked
    cases called : getHighestNodeFrom workflow type fuel connection.node none checkedNodes with
    | ok outcome => simp [called, bind, Except.bind] at turn
    | error thrown =>
      simp only [called, bind, Except.bind] at turn
      exact ⟨unchecked, turn⟩

/-! ## Names are added once -/

theorem mem_addNames {returnNodes addNodes : List String} {name : String} :
    name ∈ addNames returnNodes addNodes ↔ name ∈ returnNodes ∨ name ∈ addNodes := by
  have turn : ∀ (state : List String) (item : String),
      name ∈ (if item ∈ state then state else state ++ [item]) ↔ name ∈ state ∨ name = item := by
    intro state item
    split
    · rename_i inside
      exact ⟨.inl, fun either => either.elim id fun same => same ▸ inside⟩
    · rw [List.mem_append, List.mem_singleton]
  rw [addNames, Loop.foldl_iff_exists (name ∈ ·) (name = ·) turn]
  simp

theorem nodup_addNames {returnNodes : List String} (distinct : returnNodes.Nodup) (addNodes : List String) :
    (addNames returnNodes addNodes).Nodup := by
  apply Loop.foldl_preserves List.Nodup _ distinct
  intro item _ state distinct
  split
  · exact distinct
  · rename_i absent
    rw [← List.concat_eq_append]
    exact distinct.concat absent

theorem addNames_eq_nil {returnNodes addNodes : List String} :
    addNames returnNodes addNodes = [] ↔ returnNodes = [] ∧ addNodes = [] := by
  simp only [List.eq_nil_iff_forall_not_mem, mem_addNames, not_or, forall_and]

/-! ## What a call returns -/

def before (order : List String) (nodeName : String) : List String := order.takeWhile (· ≠ nodeName)

theorem before_of_grown {order order' : List String} (isPrefix : order <+: order') (inside : nodeName ∈ order) :
    before order' nodeName = before order nodeName := by
  obtain ⟨rest, rfl⟩ := isPrefix
  induction order with
  | nil => cases inside
  | cons first order ih =>
    by_cases same : first = nodeName
    · simp [before, same]
    · have inOrder : nodeName ∈ order := (List.mem_cons.mp inside).resolve_left fun same' => same same'.symm
      have keeps : decide (first ≠ nodeName) = true := decide_eq_true same
      simp only [before, List.cons_append, List.takeWhile_cons, keeps, if_true]
      exact congrArg _ (ih inOrder)

theorem before_append_self {order : List String} (absent : nodeName ∉ order) :
    before (order ++ [nodeName]) nodeName = order := by
  have all : ∀ name ∈ order, decide (name ≠ nodeName) = true :=
    fun name inside => decide_eq_true fun same => absent (same ▸ inside)
  rw [before, List.takeWhile_append_of_pos all]
  simp

variable (workflow type)

/-- An enabled node above which no enabled node can be reached that avoids the nodes in front of it. -/
def IsTop (order : List String) (nodeName : String) : Prop :=
  workflow.IsEnabled nodeName ∧
    ∀ name, name ≠ nodeName → Reaches (workflow.parentNames type) (before order nodeName) nodeName name →
      ¬ workflow.IsEnabled name

def innerParents (nodeName : String) : List String :=
  (workflow.parentNames type nodeName).filter (workflow.HasInputs type ·)

variable {workflow type}

/-- For a node that is checked, or has no inputs, it does not matter what comes later. -/
theorem isTop_of_grown {order order' : List String} (isPrefix : order <+: order')
    (settled : workflow.HasInputs type nodeName → nodeName ∈ order) :
    workflow.IsTop type order' nodeName ↔ workflow.IsTop type order nodeName := by
  by_cases has : workflow.HasInputs type nodeName
  · rw [IsTop, IsTop, before_of_grown isPrefix (settled has)]
  · have alone : ∀ checked name, Reaches (workflow.parentNames type) checked nodeName name → name = nodeName :=
      fun _ _ => SharedSearch.reaches_of_leaf (parentNames_of_not_hasInputs has)
    rw [IsTop, IsTop]
    apply and_congr_right
    intro _
    exact ⟨fun _ name different reaches => absurd (alone _ _ reaches) different,
      fun _ name different reaches => absurd (alone _ _ reaches) different⟩

/-- Of the nodes that some starts reach: which are checked afterwards, which are returned, and whether any is. -/
structure Explores (workflow : Workflow) (type : NodeConnectionType) (starts checkedNodes : List String)
    (returned : List String) (checkedNodes' : List String) : Prop where
  grows : checkedNodes <+: checkedNodes'
  checked : ∀ name, name ∈ checkedNodes' ↔ name ∈ checkedNodes ∨
    workflow.HasInputs type name ∧ Covered (workflow.parentNames type) checkedNodes starts name
  nodes : ∀ name, Covered (workflow.parentNames type) checkedNodes starts name → (workflow.getNode name).isSome
  tops : ∀ name, name ∈ returned ↔
    Covered (workflow.parentNames type) checkedNodes starts name ∧ workflow.IsTop type checkedNodes' name
  empty : returned = [] ↔
    ∀ name, Covered (workflow.parentNames type) checkedNodes starts name → ¬ workflow.IsEnabled name
  nodup : returned.Nodup

theorem isEnabled_iff {node : INode} (found : workflow.getNode nodeName = some node) :
    workflow.IsEnabled nodeName ↔ node.isDisabled = false := by
  simp [IsEnabled, found]

theorem orItself_of_isEnabled (enabled : workflow.IsEnabled nodeName) (addNodes : List String) :
    workflow.orItself nodeName addNodes = if addNodes = [] then [nodeName] else addNodes := by
  obtain ⟨node, found, notDisabled⟩ := enabled
  cases addNodes <;> simp [orItself, found, notDisabled]

theorem orItself_of_not_isEnabled {node : INode} (found : workflow.getNode nodeName = some node)
    (notEnabled : ¬ workflow.IsEnabled nodeName) (addNodes : List String) :
    workflow.orItself nodeName addNodes = addNodes := by
  rw [isEnabled_iff found, Bool.not_eq_false] at notEnabled
  simp [orItself, found, notEnabled]

theorem explores_nil (checkedNodes : List String) : Explores workflow type [] checkedNodes [] checkedNodes where
  grows := List.prefix_refl _
  checked := by simp [Covered]
  nodes := by simp [Covered]
  tops := by simp [Covered]
  empty := by simp [Covered]
  nodup := List.nodup_nil

theorem Explores.skip {starts checkedNodes returned checkedNodes' : List String}
    (explores : Explores workflow type starts checkedNodes returned checkedNodes')
    (isChecked : nodeName ∈ checkedNodes) :
    Explores workflow type (nodeName :: starts) checkedNodes returned checkedNodes' := by
  have same : ∀ name, Covered (workflow.parentNames type) checkedNodes (nodeName :: starts) name ↔
      Covered (workflow.parentNames type) checkedNodes starts name :=
    fun _ => SharedSearch.covered_cons_of_checked isChecked
  refine ⟨explores.grows, fun name => ?_, fun name => ?_, fun name => ?_, ?_, explores.nodup⟩
  · rw [same, explores.checked]
  · rw [same]
    exact explores.nodes name
  · rw [same, explores.tops]
  · simp only [same, explores.empty]

theorem Explores.cons {nodeName : String} {starts checkedNodes between checkedNodes' first returned : List String}
    (explores : Explores workflow type [nodeName] checkedNodes first between)
    (further : Explores workflow type starts between returned checkedNodes') :
    Explores workflow type (nodeName :: starts) checkedNodes (addNames first returned) checkedNodes' := by
  have split : ∀ name, Covered (workflow.parentNames type) checkedNodes (nodeName :: starts) name ↔
      Covered (workflow.parentNames type) checkedNodes [nodeName] name ∨
        Covered (workflow.parentNames type) between starts name :=
    fun _ => SharedSearch.covered_cons explores.checked
  refine ⟨explores.grows.trans further.grows, fun name => ?_, fun name covered => ?_, fun name => ?_, ?_,
    nodup_addNames explores.nodup _⟩
  · rw [further.checked, explores.checked, split]
    tauto
  · cases (split name).mp covered with
    | inl before => exact explores.nodes name before
    | inr after => exact further.nodes name after
  · rw [mem_addNames, explores.tops, further.tops, split]
    have settled : Covered (workflow.parentNames type) checkedNodes [nodeName] name →
        (workflow.IsTop type checkedNodes' name ↔ workflow.IsTop type between name) := fun covered =>
      isTop_of_grown further.grows fun has => (explores.checked name).mpr (.inr ⟨has, covered⟩)
    tauto
  · rw [addNames_eq_nil, explores.empty, further.empty]
    simp only [split, or_imp, forall_and]

/-- Below a node that was not checked: the node itself, and what its parents reach. -/
theorem covered_singleton (workflow : Workflow) (type : NodeConnectionType) (unchecked : nodeName ∉ checkedNodes)
    (name : String) :
    Covered (workflow.parentNames type) checkedNodes [nodeName] name ↔ name = nodeName ∨
      Covered (workflow.parentNames type) (checkedNodes ++ [nodeName]) (workflow.parentNames type nodeName) name := by
  have single : Covered (workflow.parentNames type) checkedNodes [nodeName] name ↔
      Reaches (workflow.parentNames type) checkedNodes nodeName name := by
    simp [Covered, unchecked]
  rw [single, PathCollection.reaches_iff]
  rfl

theorem explores_leaf {node : INode} (without : ¬ workflow.HasInputs type nodeName)
    (unchecked : nodeName ∉ checkedNodes) (found : workflow.getNode nodeName = some node) :
    Explores workflow type [nodeName] checkedNodes
      (workflow.orItself nodeName (if node.disabled = some false then [nodeName] else [])) checkedNodes := by
  have only : ∀ name, Covered (workflow.parentNames type) checkedNodes [nodeName] name ↔ name = nodeName := by
    intro name
    rw [covered_singleton workflow type unchecked, parentNames_of_not_hasInputs without]
    simp [Covered]
  have isTop : workflow.IsTop type checkedNodes nodeName ↔ workflow.IsEnabled nodeName := by
    rw [IsTop, and_iff_left_iff_imp]
    intro _ name different reaches
    exact absurd (SharedSearch.reaches_of_leaf (parentNames_of_not_hasInputs without) reaches) different
  have returned : workflow.orItself nodeName (if node.disabled = some false then [nodeName] else []) =
      if node.isDisabled = false then [nodeName] else [] := by
    cases disabled : node.disabled with
    | none => simp [orItself, found, INode.isDisabled, disabled]
    | some isDisabled => cases isDisabled <;> simp [orItself, found, INode.isDisabled, disabled]
  rw [returned]
  refine ⟨List.prefix_refl _, fun name => ?_, fun name covered => ?_, fun name => ?_, ?_, ?_⟩
  · rw [only, iff_self_or]
    intro both
    exact absurd (both.2 ▸ both.1) without
  · rw [(only name).mp covered, found]
    rfl
  · rw [only]
    split
    · rename_i enabled
      rw [List.mem_singleton]
      exact ⟨fun same => ⟨same, same ▸ isTop.mpr ((isEnabled_iff found).mpr enabled)⟩, And.left⟩
    · rename_i disabled
      refine iff_of_false List.not_mem_nil fun both => disabled ?_
      rw [both.1] at both
      exact (isEnabled_iff found).mp both.2.1
  · simp only [only, forall_eq, isEnabled_iff found]
    split <;> simp_all
  · split
    · exact List.nodup_singleton _
    · exact List.nodup_nil

theorem explores_node {checkedNodes returned checkedNodes' : List String} (unchecked : nodeName ∉ checkedNodes)
    (found : (workflow.getNode nodeName).isSome) (has : workflow.HasInputs type nodeName)
    (explores : Explores workflow type (workflow.parentNames type nodeName) (checkedNodes ++ [nodeName]) returned
      checkedNodes') :
    Explores workflow type [nodeName] checkedNodes (workflow.orItself nodeName returned) checkedNodes' := by
  have split := covered_singleton workflow type unchecked
  obtain ⟨node, isNode⟩ := Option.isSome_iff_exists.mp found
  have inOrder : before checkedNodes' nodeName = checkedNodes := by
    rw [before_of_grown explores.grows (by simp), before_append_self unchecked]
  have itself : Covered (workflow.parentNames type) checkedNodes [nodeName] nodeName := (split _).mpr (.inl rfl)
  -- the node itself counts as highest if its parents reach no enabled node
  have isTop : workflow.IsTop type checkedNodes' nodeName ↔ workflow.IsEnabled nodeName ∧ returned = [] := by
    rw [IsTop, inOrder, explores.empty]
    apply and_congr_right
    intro _
    constructor
    · intro noneEnabled name covered
      have different : name ≠ nodeName := fun same => covered.unchecked (by simp [same])
      obtain ⟨start, inside, _, reaches⟩ := (split name).mpr (.inr covered)
      obtain rfl := List.mem_singleton.mp inside
      exact noneEnabled name different reaches
    · intro noneEnabled name different reaches
      have covered : Covered (workflow.parentNames type) checkedNodes [nodeName] name :=
        ⟨nodeName, List.mem_singleton_self _, unchecked, reaches⟩
      exact noneEnabled name (((split name).mp covered).resolve_left different)
  have tops : ∀ name, (name = nodeName ∧ workflow.IsEnabled nodeName ∧ returned = []) ∨ name ∈ returned ↔
      Covered (workflow.parentNames type) checkedNodes [nodeName] name ∧ workflow.IsTop type checkedNodes' name := by
    intro name
    rw [split, explores.tops, or_and_right, ← isTop]
    apply or_congr_left
    apply and_congr_right
    intro same
    rw [same]
  have returnedIs : ∀ name, name ∈ workflow.orItself nodeName returned ↔
      (name = nodeName ∧ workflow.IsEnabled nodeName ∧ returned = []) ∨ name ∈ returned := by
    intro name
    by_cases enabled : workflow.IsEnabled nodeName
    · rw [orItself_of_isEnabled enabled]
      by_cases isNil : returned = []
      · simp [isNil, enabled]
      · simp [isNil]
    · rw [orItself_of_not_isEnabled isNode enabled]
      simp [enabled]
  refine ⟨(List.prefix_append _ _).trans explores.grows, fun name => ?_, fun name covered => ?_, fun name => ?_, ?_, ?_⟩
  · rw [explores.checked, split, List.mem_append, List.mem_singleton]
    constructor
    · rintro ((old | same) | further)
      · exact .inl old
      · exact .inr ⟨same ▸ has, .inl same⟩
      · exact .inr ⟨further.1, .inr further.2⟩
    · rintro (old | ⟨hasInputs, same | further⟩)
      · exact .inl (.inl old)
      · exact .inl (.inr same)
      · exact .inr ⟨hasInputs, further⟩
  · cases (split name).mp covered with
    | inl same => exact same ▸ found
    | inr further => exact explores.nodes name further
  · rw [returnedIs, tops]
  · rw [List.eq_nil_iff_forall_not_mem]
    simp only [returnedIs, not_or, split, or_imp, forall_and, forall_eq, ← explores.empty,
      ← List.eq_nil_iff_forall_not_mem]
    constructor
    · rintro ⟨notItself, isNil⟩
      exact ⟨fun enabled => notItself nodeName ⟨rfl, enabled, isNil⟩, isNil⟩
    · rintro ⟨notEnabled, isNil⟩
      exact ⟨fun _ both => notEnabled both.2.1, isNil⟩
  · by_cases enabled : workflow.IsEnabled nodeName
    · rw [orItself_of_isEnabled enabled]
      split
      · exact List.nodup_singleton _
      · exact explores.nodup
    · rw [orItself_of_not_isEnabled isNode enabled]
      exact explores.nodup

/-! ## The recursion -/

def OnlyInner (workflow : Workflow) (type : NodeConnectionType) (checkedNodes : List String) : Prop :=
  ∀ name ∈ checkedNodes, workflow.HasInputs type name

theorem OnlyInner.append (inner : OnlyInner workflow type checkedNodes) (has : workflow.HasInputs type nodeName) :
    OnlyInner workflow type (checkedNodes ++ [nodeName]) := by
  intro name inside
  cases List.mem_append.mp inside with
  | inl old => exact inner name old
  | inr isNode => exact List.mem_singleton.mp isNode ▸ has

theorem Explores.onlyInner {starts checkedNodes returned checkedNodes' : List String}
    (explores : Explores workflow type starts checkedNodes returned checkedNodes')
    (inner : OnlyInner workflow type checkedNodes) : OnlyInner workflow type checkedNodes' := by
  intro name inside
  cases (explores.checked name).mp inside with
  | inl old => exact inner name old
  | inr new => exact new.1

/-- What a call does: it explores the node, in depth-first order. -/
structure CallExplores (workflow : Workflow) (type : NodeConnectionType) (nodeName : String)
    (checkedNodes returned checkedNodes' : List String) : Prop where
  itself : Explores workflow type [nodeName] checkedNodes (workflow.orItself nodeName returned) checkedNodes'
  parents : workflow.HasInputs type nodeName →
    Explores workflow type (workflow.parentNames type nodeName) (checkedNodes ++ [nodeName]) returned checkedNodes'
  run : workflow.HasInputs type nodeName →
    ∃ events, DepthFirst.Run (workflow.innerParents type) (.visit nodeName) checkedNodes events checkedNodes'
  leaf : ¬ workflow.HasInputs type nodeName → checkedNodes' = checkedNodes

theorem foldlM_addHighest_explores (nodeName : String)
    (calls : ∀ nodeName checkedNodes returned checkedNodes', nodeName ∉ checkedNodes →
      OnlyInner workflow type checkedNodes →
        getHighestNodeFrom workflow type fuel nodeName none checkedNodes = .ok (returned, checkedNodes') →
          CallExplores workflow type nodeName checkedNodes returned checkedNodes') {connections : List IConnection}
    {returnNodes checkedNodes returnNodes' checkedNodes' : List String} (inner : OnlyInner workflow type checkedNodes)
    (returns : connections.foldlM (addHighest workflow type fuel) (returnNodes, checkedNodes) =
      .ok (returnNodes', checkedNodes')) :
    ∃ added, Explores workflow type (connections.map (·.node)) checkedNodes added checkedNodes' ∧
      (∀ name, name ∈ returnNodes' ↔ name ∈ returnNodes ∨ name ∈ added) ∧
      (returnNodes.Nodup → returnNodes'.Nodup) ∧
      ∃ events, DepthFirst.Run (workflow.innerParents type)
        (.loop nodeName ((connections.map (·.node)).filter (workflow.HasInputs type ·))) checkedNodes events
        checkedNodes' := by
  induction connections generalizing returnNodes checkedNodes with
  | nil =>
    cases returns
    exact ⟨[], explores_nil _, by simp, id, [], .done⟩
  | cons connection rest ih =>
    obtain ⟨⟨between, checkedBetween⟩, turn, further⟩ := Loop.foldlM_cons_inv returns
    rcases addHighest_ok turn with ⟨isChecked, rfl, rfl⟩ | ⟨unchecked, addNodes, called, rfl⟩
    · obtain ⟨added, explores, mem, nodup, events, run⟩ := ih inner further
      refine ⟨added, explores.skip isChecked, mem, nodup, ?_⟩
      rw [List.map_cons, List.filter_cons_of_pos (by simpa using inner _ isChecked)]
      exact ⟨_, .next (.seen isChecked) run⟩
    · have call := calls _ _ _ _ unchecked inner called
      obtain ⟨added, explores, mem, nodup, events, run⟩ :=
        ih (call.itself.onlyInner inner) further
      refine ⟨_, call.itself.cons explores, fun name => ?_, fun distinct => nodup (nodup_addNames distinct _), ?_⟩
      · rw [mem, mem_addNames, mem_addNames, or_assoc]
      · rw [List.map_cons]
        by_cases has : workflow.HasInputs type connection.node
        · rw [List.filter_cons_of_pos (by simpa using has)]
          obtain ⟨first, down⟩ := call.run has
          exact ⟨_, .next down run⟩
        · rw [List.filter_cons_of_neg (by simpa using has)]
          rw [call.leaf has] at run
          exact ⟨_, run⟩

theorem getHighestNodeFrom_explores (fuel : Nat) : ∀ nodeName checkedNodes returned checkedNodes',
    nodeName ∉ checkedNodes → OnlyInner workflow type checkedNodes →
      getHighestNodeFrom workflow type fuel nodeName none checkedNodes = .ok (returned, checkedNodes') →
        CallExplores workflow type nodeName checkedNodes returned checkedNodes' := by
  induction fuel with
  | zero =>
    intro _ _ _ _ _ _ returns
    cases returns
  | succ fuel ih =>
    intro nodeName checkedNodes returned checkedNodes' unchecked inner returns
    cases found : workflow.getNode nodeName with
    | none =>
      rw [getHighestNodeFrom, found] at returns
      cases returns
    | some node =>
      by_cases has : workflow.HasInputs type nodeName
      · rw [getHighestNodeFrom_of_hasInputs has found unchecked] at returns
        obtain ⟨added, explores, mem, nodup, events, run⟩ :=
          foldlM_addHighest_explores nodeName ih (inner.append has) returns
        have exploresParents : Explores workflow type (workflow.parentNames type nodeName)
            (checkedNodes ++ [nodeName]) returned checkedNodes' := by
          have sameMembers : ∀ name, name ∈ returned ↔ name ∈ added := by simpa using mem
          refine ⟨explores.grows, explores.checked, explores.nodes, fun name => ?_, ?_, nodup List.nodup_nil⟩
          · rw [sameMembers]
            exact explores.tops name
          · rw [List.eq_nil_iff_forall_not_mem]
            simp only [sameMembers, ← List.eq_nil_iff_forall_not_mem]
            exact explores.empty
        exact ⟨explores_node unchecked (by rw [found]; rfl) has exploresParents, fun _ => exploresParents,
          fun _ => ⟨_, .fresh unchecked run⟩, fun without => absurd has without⟩
      · rw [getHighestNodeFrom_of_not_hasInputs has found] at returns
        cases returns
        exact ⟨explores_leaf has unchecked found, fun impossible => absurd impossible has,
          fun impossible => absurd impossible has, fun _ => rfl⟩

/-- What a call or a loop throws: the call stack is exhausted, or a node is missing. -/
theorem foldlM_addHighest_error
    (calls : ∀ nodeName checkedNodes error, nodeName ∉ checkedNodes → OnlyInner workflow type checkedNodes →
      getHighestNodeFrom workflow type fuel nodeName none checkedNodes = .error error →
        error = .rangeError ∨ ∃ name, Covered (workflow.parentNames type) checkedNodes [nodeName] name ∧
          workflow.getNode name = none) {connections : List IConnection}
    {error : Thrown} (inner : OnlyInner workflow type checkedNodes)
    (throws : connections.foldlM (addHighest workflow type fuel) (returnNodes, checkedNodes) = .error error) :
    error = .rangeError ∨ ∃ name,
      Covered (workflow.parentNames type) checkedNodes (connections.map (·.node)) name ∧
        workflow.getNode name = none := by
  induction connections generalizing returnNodes checkedNodes with
  | nil => cases throws
  | cons connection rest ih =>
    cases turn : addHighest workflow type fuel (returnNodes, checkedNodes) connection with
    | error thrown =>
      rw [Loop.foldlM_cons_error turn] at throws
      cases throws
      obtain ⟨unchecked, called⟩ := addHighest_error turn
      apply (calls _ _ _ unchecked inner called).imp_right
      rintro ⟨name, ⟨start, isStart, startUnchecked, reaches⟩, missing⟩
      obtain rfl := List.mem_singleton.mp isStart
      exact ⟨name, ⟨_, List.mem_cons_self, startUnchecked, reaches⟩, missing⟩
    | ok state =>
      obtain ⟨between, checkedBetween⟩ := state
      rw [Loop.foldlM_cons_ok turn] at throws
      rcases addHighest_ok turn with ⟨isChecked, rfl, rfl⟩ | ⟨unchecked, addNodes, called, rfl⟩
      · apply (ih inner throws).imp_right
        rintro ⟨name, covered, missing⟩
        exact ⟨name, (SharedSearch.covered_cons_of_checked isChecked).mpr covered, missing⟩
      · have call := getHighestNodeFrom_explores fuel _ _ _ _ unchecked inner called
        apply (ih (call.itself.onlyInner inner) throws).imp_right
        rintro ⟨name, covered, missing⟩
        exact ⟨name, (SharedSearch.covered_cons call.itself.checked).mpr (.inr covered), missing⟩

theorem getHighestNodeFrom_error (fuel : Nat) : ∀ nodeName checkedNodes error, nodeName ∉ checkedNodes →
    OnlyInner workflow type checkedNodes →
      getHighestNodeFrom workflow type fuel nodeName none checkedNodes = .error error →
        error = .rangeError ∨ ∃ name, Covered (workflow.parentNames type) checkedNodes [nodeName] name ∧
          workflow.getNode name = none := by
  induction fuel with
  | zero =>
    intro _ _ _ _ _ throws
    cases throws
    exact .inl rfl
  | succ fuel ih =>
    intro nodeName checkedNodes error unchecked inner throws
    cases found : workflow.getNode nodeName with
    | none => exact .inr ⟨nodeName, (covered_singleton workflow type unchecked nodeName).mpr (.inl rfl), found⟩
    | some node =>
      by_cases has : workflow.HasInputs type nodeName
      · rw [getHighestNodeFrom_of_hasInputs has found unchecked] at throws
        apply (foldlM_addHighest_error ih (inner.append has) throws).imp_right
        rintro ⟨name, covered, missing⟩
        exact ⟨name, (covered_singleton workflow type unchecked name).mpr (.inr covered), missing⟩
      · rw [getHighestNodeFrom_of_not_hasInputs has found] at throws
        cases throws

/-- The parents of a node one after the other: none of the calls exhausts the call stack, and the checked nodes
stay checked. -/
theorem foldlM_addHighest_terminates {workflow : Workflow} {type : NodeConnectionType}
    (calls : ∀ nodeName index checkedNodes,
      (Traversal.unmarked workflow.connectionsByDestinationNode.keys checkedNodes).length < fuel →
        getHighestNodeFrom workflow type fuel nodeName index checkedNodes ≠ .error .rangeError ∧
          ∀ returned checkedNodes',
            getHighestNodeFrom workflow type fuel nodeName index checkedNodes = .ok (returned, checkedNodes') →
              checkedNodes ⊆ checkedNodes') (connections : List IConnection)
    (enough : (Traversal.unmarked workflow.connectionsByDestinationNode.keys checkedNodes).length < fuel) :
    connections.foldlM (addHighest workflow type fuel) (returnNodes, checkedNodes) ≠ .error .rangeError ∧
      ∀ returned checkedNodes', connections.foldlM (addHighest workflow type fuel) (returnNodes, checkedNodes) =
        .ok (returned, checkedNodes') → checkedNodes ⊆ checkedNodes' := by
  induction connections generalizing returnNodes checkedNodes with
  | nil =>
    refine ⟨nofun, fun _ _ returns => ?_⟩
    cases returns
    exact List.Subset.refl _
  | cons connection rest ih =>
    cases turn : addHighest workflow type fuel (returnNodes, checkedNodes) connection with
    | error thrown =>
      rw [Loop.foldlM_cons_error turn]
      refine ⟨fun isRange => ?_, nofun⟩
      cases isRange
      exact (calls _ none checkedNodes enough).1 (addHighest_error turn).2
    | ok state =>
      obtain ⟨between, checkedBetween⟩ := state
      rw [Loop.foldlM_cons_ok turn]
      have grows : checkedNodes ⊆ checkedBetween := by
        rcases addHighest_ok turn with ⟨_, _, rfl⟩ | ⟨_, addNodes, called, _⟩
        · exact List.Subset.refl _
        · exact (calls _ none checkedNodes enough).2 _ _ called
      have smaller := Traversal.length_unmarked_le workflow.connectionsByDestinationNode.keys grows
      have further := @ih between checkedBetween (by omega)
      exact ⟨further.1, fun returned final returns => List.Subset.trans grows (further.2 returned final returns)⟩

/-- Every call goes to a node that is new, so the nodes with inputs bound the depth of the recursion. -/
theorem getHighestNodeFrom_terminates (workflow : Workflow) (type : NodeConnectionType) (fuel : Nat) :
    ∀ nodeName index checkedNodes,
    (Traversal.unmarked workflow.connectionsByDestinationNode.keys checkedNodes).length < fuel →
      getHighestNodeFrom workflow type fuel nodeName index checkedNodes ≠ .error .rangeError ∧
        ∀ returned checkedNodes',
          getHighestNodeFrom workflow type fuel nodeName index checkedNodes = .ok (returned, checkedNodes') →
            checkedNodes ⊆ checkedNodes' := by
  induction fuel with
  | zero => exact fun _ _ _ enough => absurd enough (Nat.not_lt_zero _)
  | succ fuel ih =>
    intro nodeName index checkedNodes enough
    cases found : workflow.getNode nodeName with
    | none =>
      rw [getHighestNodeFrom, found]
      exact ⟨nofun, nofun⟩
    | some node =>
      rw [getHighestNodeFrom, found]
      cases listed : (workflow.connectionsByDestinationNode.get? nodeName).bind (·.get? type) with
      | none =>
        refine ⟨nofun, fun _ _ returns => ?_⟩
        cases returns
        exact List.Subset.refl _
      | some inputs =>
        dsimp only
        split
        · refine ⟨nofun, fun _ _ returns => ?_⟩
          cases returns
          exact List.Subset.refl _
        · rename_i unchecked
          have fewer := Traversal.length_unmarked_lt (OrderedMap.mem_keys_of_bind listed) unchecked
          have fewerThen : (Traversal.unmarked workflow.connectionsByDestinationNode.keys
              (checkedNodes ++ [nodeName])).length < fuel := by omega
          obtain ⟨notRange, grows⟩ := foldlM_addHighest_terminates ih _ fewerThen
          exact ⟨notRange, fun returned final returns =>
            List.Subset.trans (List.subset_append_left _ _) (grows returned final returns)⟩

/-! ## What the caller gets -/

variable (workflow type)

def Ancestor (nodeName name : String) : Prop :=
  Relation.TransGen (fun nodeName parent => parent ∈ workflow.parentNames type nodeName) nodeName name

structure IsHighest (nodeName name : String) : Prop where
  ancestor : workflow.Ancestor type nodeName name
  enabled : workflow.IsEnabled name
  highest : ∀ above, workflow.Ancestor type name above → ¬ workflow.IsEnabled above

/-- The order in which a depth-first search from the node first meets the nodes with inputs. -/
def IsDepthFirstOrder (nodeName : String) (order : List String) : Prop :=
  ∃ events, DepthFirst.Run (workflow.innerParents type) (.visit nodeName) [] events order

/-- Every enabled ancestor with an enabled ancestor reaches one without passing a node that comes before it in
depth-first order. -/
def NoneCutOff (nodeName : String) : Prop :=
  ∀ order, workflow.IsDepthFirstOrder type nodeName order → ∀ name, workflow.Ancestor type nodeName name →
    workflow.IsEnabled name → (∃ above, workflow.Ancestor type name above ∧ workflow.IsEnabled above) →
      ∃ above, above ≠ name ∧ Reaches (workflow.parentNames type) (before order name) name above ∧
        workflow.IsEnabled above

variable {workflow type}

theorem ancestor_of_reaches {nodeName name : String}
    (reaches : Reaches (workflow.parentNames type) checkedNodes nodeName name) (different : name ≠ nodeName) :
    workflow.Ancestor type nodeName name := by
  have plain : Relation.ReflTransGen (fun nodeName parent => parent ∈ workflow.parentNames type nodeName)
      nodeName name := Relation.ReflTransGen.mono (fun _ _ step => step.1) _ _ reaches
  exact (Relation.reflTransGen_iff_eq_or_transGen.mp plain).resolve_left different

/-- Without cycles the parents reach the ancestors, and the node itself is none of them. -/
theorem covered_parents_iff (acyclic : ∀ name, ¬ workflow.Ancestor type name name) (nodeName name : String) :
    Covered (workflow.parentNames type) ([] ++ [nodeName]) (workflow.parentNames type nodeName) name ↔
      workflow.Ancestor type nodeName name := by
  have split := covered_singleton workflow type (@List.not_mem_nil _ nodeName) name
  constructor
  · intro covered
    have different : name ≠ nodeName := fun same => covered.unchecked (by simp [same])
    obtain ⟨start, inside, _, reaches⟩ := split.mpr (.inr covered)
    obtain rfl := List.mem_singleton.mp inside
    exact ancestor_of_reaches reaches different
  · intro ancestor
    have reaches : Reaches (workflow.parentNames type) [] nodeName name :=
      PathCollection.reaches_of_acyclic acyclic (by simp) ancestor
    have covered := split.mp ⟨nodeName, List.mem_singleton_self _, List.not_mem_nil, reaches⟩
    exact covered.resolve_left fun same => acyclic nodeName (same ▸ ancestor)

/-- The call ends for every workflow.  Without cycles, for a node with a parent, it returns the highest ancestors if
and only if all ancestors are nodes and no enabled one is cut off from the enabled ones above it. -/
theorem getHighestNode_iff (workflow : Workflow) (type : NodeConnectionType) (nodeName : String) :
    (∀ index, workflow.getHighestNode nodeName type index ≠ .error .rangeError) ∧
      ((workflow.getNode nodeName).isSome → workflow.parentNames type nodeName ≠ [] →
        (∀ name, ¬ workflow.Ancestor type name name) →
          ((∃ names, workflow.getHighestNode nodeName type none = .ok names ∧ names.Nodup ∧
              ∀ name, name ∈ names ↔ workflow.IsHighest type nodeName name) ↔
            (∀ name, workflow.Ancestor type nodeName name → (workflow.getNode name).isSome) ∧
              workflow.NoneCutOff type nodeName)) := by
  have bounded : (Traversal.unmarked workflow.connectionsByDestinationNode.keys []).length <
      workflow.connectionsByDestinationNode.size + 2 := by
    rw [Traversal.unmarked_nil, OrderedMap.length_keys]
    omega
  constructor
  · intro index throws
    rw [getHighestNode] at throws
    have ends := (getHighestNodeFrom_terminates workflow type _ nodeName index [] bounded).1
    cases called : getHighestNodeFrom workflow type (workflow.connectionsByDestinationNode.size + 2) nodeName index
        [] with
    | ok outcome => simp [called, Except.map] at throws
    | error thrown =>
      simp only [called, Except.map, Except.error.injEq] at throws
      exact ends (throws ▸ called)
  · intro isNode hasParent acyclic
    have has : workflow.HasInputs type nodeName := by
      by_contra without
      exact hasParent (parentNames_of_not_hasInputs without)
    have inner : OnlyInner workflow type [] := fun _ inside => absurd inside List.not_mem_nil
    cases called : getHighestNodeFrom workflow type (workflow.connectionsByDestinationNode.size + 2) nodeName none
        [] with
    | error thrown =>
      rw [getHighestNode, called]
      refine iff_of_false (by simp [Except.map]) fun condition => ?_
      have notRange : thrown ≠ .rangeError := fun isRange =>
        (getHighestNodeFrom_terminates workflow type _ nodeName none [] bounded).1 (isRange ▸ called)
      obtain ⟨name, covered, missing⟩ :=
        (getHighestNodeFrom_error _ _ _ _ List.not_mem_nil inner called).resolve_left notRange
      have present : (workflow.getNode name).isSome := by
        cases (covered_singleton workflow type List.not_mem_nil name).mp covered with
        | inl same => exact same ▸ isNode
        | inr above => exact condition.1 name ((covered_parents_iff acyclic nodeName name).mp above)
      rw [missing] at present
      cases present
    | ok outcome =>
      obtain ⟨names, order⟩ := outcome
      have call := getHighestNodeFrom_explores _ _ _ _ _ List.not_mem_nil inner called
      have explores := call.parents has
      have isOrder : workflow.IsDepthFirstOrder type nodeName order := call.run has
      have returned : ∀ name, name ∈ names ↔
          workflow.Ancestor type nodeName name ∧ workflow.IsTop type order name := by
        intro name
        rw [explores.tops, covered_parents_iff acyclic]
      have returns : workflow.getHighestNode nodeName type none = .ok names := by
        rw [getHighestNode, called]
        rfl
      constructor
      · rintro ⟨names', returns', _, highest⟩
        obtain rfl := Except.ok.inj (returns.symm.trans returns')
        refine ⟨fun name ancestor => explores.nodes name ((covered_parents_iff acyclic nodeName name).mpr ancestor), ?_⟩
        rintro order' ⟨_, run'⟩ name ancestor enabled ⟨above, isAbove, aboveEnabled⟩
        obtain ⟨_, run⟩ := isOrder
        obtain rfl := run.unique run'
        have notTop : ¬ workflow.IsTop type order name := by
          intro top
          exact ((highest name).mp ((returned name).mpr ⟨ancestor, top⟩)).highest above isAbove aboveEnabled
        by_contra none
        apply notTop
        exact ⟨enabled, fun above different reaches aboveEnabled =>
          none ⟨above, different, reaches, aboveEnabled⟩⟩
      · rintro ⟨_, noneCutOff⟩
        refine ⟨names, returns, explores.nodup, fun name => ?_⟩
        rw [returned]
        constructor
        · rintro ⟨ancestor, top⟩
          refine ⟨ancestor, top.1, fun above isAbove aboveEnabled => ?_⟩
          obtain ⟨reached, different, reaches, reachedEnabled⟩ :=
            noneCutOff order isOrder name ancestor top.1 ⟨above, isAbove, aboveEnabled⟩
          exact top.2 reached different reaches reachedEnabled
        · rintro ⟨ancestor, enabled, highest⟩
          exact ⟨ancestor, enabled, fun above different reaches =>
            highest above (ancestor_of_reaches reaches different)⟩

/-! Two branches below a node with a parent, and a node with one parent. -/

namespace TwoBranches

def node (name : String) : INode := { id := name, name, type := "set" }

def outputs (names : List String) : INodeConnections :=
  (∅ : INodeConnections).set .main [.full (names.map fun name => { node := name, type := .main, index := 0 })]

def branches : Workflow :=
  Workflow.new [node "start", node "split", node "left", node "right", node "join"]
    ((∅ : IConnections)
      |>.set "start" (outputs ["split"])
      |>.set "split" (outputs ["left", "right"])
      |>.set "left" (outputs ["join"])
      |>.set "right" (outputs ["join"])) {}

def line : Workflow :=
  Workflow.new [node "start", node "join"] ((∅ : IConnections).set "start" (outputs ["join"])) {}

def level (name : String) : Nat := ["start", "split", "left", "right", "join"].idxOf name

theorem acyclic_of_levels {workflow : Workflow}
    (rises : ∀ name ∈ workflow.connectionsByDestinationNode.keys, ∀ parent ∈ workflow.parentNames .main name,
      level parent < level name) (name : String) : ¬ workflow.Ancestor .main name name := by
  have below : ∀ above, workflow.Ancestor .main name above → level above < level name := by
    intro above ancestor
    have step : ∀ nodeName parent, parent ∈ workflow.parentNames .main nodeName → level parent < level nodeName := by
      intro nodeName parent isParent
      obtain ⟨connection, member, _⟩ := List.mem_map.mp isParent
      exact rises nodeName (mem_keys_of_connectionsOf member) parent isParent
    induction ancestor with
    | single isParent => exact step _ _ isParent
    | tail _ isParent ih => exact Nat.lt_trans (step _ _ isParent) ih
  exact fun ancestor => Nat.lt_irrefl _ (below name ancestor)

/-- The right branch counts as highest, because the left one has checked the node above both. -/
theorem right_is_not_highest :
    (∀ name, ¬ branches.Ancestor .main name name) ∧
      branches.getHighestNode "join" .main none = .ok ["start", "right"] ∧
        ¬ branches.IsHighest .main "join" "right" := by
  refine ⟨acyclic_of_levels (by decide), by decide, fun highest => ?_⟩
  have isParent : "split" ∈ branches.parentNames .main "right" := by decide
  exact highest.highest "split" (.single isParent) ⟨node "split", by decide, rfl⟩

theorem start_is_highest :
    ∃ names, line.getHighestNode "join" .main none = .ok names ∧ names.Nodup ∧
      ∀ name, name ∈ names ↔ line.IsHighest .main "join" name := by
  have parents : line.parentNames .main "join" = ["start"] := by decide
  have top : line.parentNames .main "start" = [] := by decide
  have noneAbove : ∀ above, ¬ line.Ancestor .main "start" above := by
    intro above ancestor
    cases Relation.TransGen.head'_iff.mp ancestor with
    | intro parent step =>
      rw [top] at step
      exact absurd step.1 List.not_mem_nil
  have onlyStart : ∀ name, line.Ancestor .main "join" name → name = "start" := by
    intro name ancestor
    obtain ⟨parent, isParent, above⟩ := Relation.TransGen.head'_iff.mp ancestor
    rw [parents] at isParent
    obtain rfl := List.mem_singleton.mp isParent
    exact (Relation.reflTransGen_iff_eq_or_transGen.mp above).resolve_right (noneAbove name)
  apply ((getHighestNode_iff line .main "join").2 (by decide) (by decide) (acyclic_of_levels (by decide))).mpr
  refine ⟨fun name ancestor => ?_, fun order _ name ancestor _ ⟨above, isAbove, _⟩ => ?_⟩
  · rw [onlyStart name ancestor]
    decide
  · rw [onlyStart name ancestor] at isAbove
    exact absurd isAbove (noneAbove above)

end TwoBranches

end N8n.Workflow
