import Mathlib.Data.List.Nodup
import N8n.Library.Loop

/-! # Credentials in a workflow update

`validateWorkflowCredentialUsage` in `packages/cli/src/workflows/workflow.service.ee.ts`.
A user who updates a workflow may not have access to all credentials of its
nodes.  Such nodes keep their previous version, and a new node may not use
those credentials.
-/

namespace N8n.Workflows

structure INodeCredentialsDetails where
  id : Option String
  name : String
deriving DecidableEq, Repr

/-- A node as the update brings it.  `fields` are the properties but for the ones listed before. -/
structure WorkflowNode (Value : Type) where
  id : String
  name : String
  position : Int × Int
  disabled : Option Bool
  credentials : Option (List (String × INodeCredentialsDetails))
  fields : String → Option Value

structure NodeOperationError (Value : Type) where
  node : WorkflowNode Value
  message : String

variable {Value : Type}

namespace WorkflowNode

/-- A credential that the node refers to by a non-empty id is not among the given ones. -/
def usesInaccessible (userCredIds : List String) (node : WorkflowNode Value) : Bool :=
  match node.credentials with
  | none => false
  | some credentials => credentials.any fun credential =>
    match credential.2.id with
    | none => false
    | some nodeCredId => nodeCredId ≠ "" && nodeCredId ∉ userCredIds

/-- `Object.assign(node, omit(previous, ['name', 'position', 'disabled']))` -/
def assign (node previous : WorkflowNode Value) : WorkflowNode Value :=
  { node with
    id := previous.id
    credentials := previous.credentials <|> node.credentials
    fields := fun field => previous.fields field <|> node.fields field }

/-- The two versions agree but for the name, the position and whether the node is disabled. -/
def Agrees (node previous : WorkflowNode Value) : Prop :=
  node.credentials = previous.credentials ∧ node.fields = previous.fields

/-- The node has no property that the previous version does not have. -/
def AddsNothing (node previous : WorkflowNode Value) : Prop :=
  (previous.credentials = none → node.credentials = none) ∧
    ∀ field, previous.fields field = none → node.fields field = none

end WorkflowNode

namespace EnterpriseWorkflowService

def getNodesWithInaccessibleCreds (nodes : List (WorkflowNode Value)) (userCredIds : List String) :
    List (WorkflowNode Value) :=
  nodes.filter (·.usesInaccessible userCredIds)

/-- The node at the first index with the id is assigned the previous version. -/
def replaceNode (previous : List (WorkflowNode Value)) (nodes : List (WorkflowNode Value)) (id : String) :
    List (WorkflowNode Value) :=
  match nodes.findIdx? (·.id = id), previous.find? (·.id = id) with
  | some nodeIdx, some previousNodeVersion => nodes.modify nodeIdx (·.assign previousNodeVersion)
  | _, _ => nodes

def tamperingError (node : WorkflowNode Value) : NodeOperationError Value where
  node := node
  message := "You don't have access to the credentials in the '" ++ node.name ++
    "' node. Ask the owner to share them with you."

/-- One turn of the loop over the nodes with inaccessible credentials. -/
def checkNode (previous nodes : List (WorkflowNode Value)) (node : WorkflowNode Value) :
    Except (NodeOperationError Value) (List (WorkflowNode Value)) :=
  if node.id ∉ previous.map (·.id) then
    .error (tamperingError node)
  else
    .ok (replaceNode previous nodes node.id)

def validateWorkflowCredentialUsage (new previous : List (WorkflowNode Value)) (allowedCredentialIds : List String) :
    Except (NodeOperationError Value) (List (WorkflowNode Value)) :=
  (getNodesWithInaccessibleCreds new allowedCredentialIds).foldlM (checkNode previous) new

/-! ## What an update may do -/

/-- Every node that uses a credential out of reach agrees with the node of its id in the previous version. -/
def GainsNothing (result previous : List (WorkflowNode Value)) (allowedCredentialIds : List String) : Prop :=
  ∀ node ∈ result, node.usesInaccessible allowedCredentialIds = true →
    ∃ before ∈ previous, before.id = node.id ∧ node.Agrees before

/-- A node with credentials out of reach has an id that the previous version does not have. -/
def IsTamperingAttempt (new previous : List (WorkflowNode Value)) (allowedCredentialIds : List String) : Prop :=
  ∃ node ∈ new, node.usesInaccessible allowedCredentialIds = true ∧ node.id ∉ previous.map (·.id)

/-- A node with credentials out of reach that comes after a node of the same id is unchanged. -/
def RepeatsUnchanged (new previous : List (WorkflowNode Value)) (allowedCredentialIds : List String) : Prop :=
  ∀ earlier node later, new = earlier ++ node :: later → node.id ∈ earlier.map (·.id) →
    node.usesInaccessible allowedCredentialIds = true → ∀ before ∈ previous, before.id = node.id → node.Agrees before

/-- The first node of an id that is out of reach adds no property, unless the previous version has credentials and they
are within reach, or it has none and neither has the node any out of reach. -/
def FirstsAddNothing (new previous : List (WorkflowNode Value)) (allowedCredentialIds : List String) : Prop :=
  ∀ earlier node later, new = earlier ++ node :: later → node.id ∉ earlier.map (·.id) →
    (∃ other ∈ new, other.id = node.id ∧ other.usesInaccessible allowedCredentialIds = true) →
    ∀ before ∈ previous, before.id = node.id →
      before.usesInaccessible allowedCredentialIds = true ∨
        (before.credentials = none ∧ node.usesInaccessible allowedCredentialIds = true) →
      node.AddsNothing before

end EnterpriseWorkflowService

/-! ## The merge of two versions -/

namespace WorkflowNode

theorem assign_assign (node previous : WorkflowNode Value) :
    (node.assign previous).assign previous = node.assign previous := by
  simp only [assign, mk.injEq, true_and]
  constructor
  · cases previous.credentials <;> rfl
  · funext field
    cases previous.fields field <;> rfl

theorem agrees_assign {node previous : WorkflowNode Value} :
    (node.assign previous).Agrees previous ↔ node.AddsNothing previous := by
  have or_eq : ∀ {α : Type} {old new : Option α}, ((old <|> new) = old) ↔ (old = none → new = none) := by
    intro α old new
    cases old <;> simp
  simp only [Agrees, assign, AddsNothing, or_eq, funext_iff]

theorem usesInaccessible_assign {node previous : WorkflowNode Value} {userCredIds : List String} :
    (node.assign previous).usesInaccessible userCredIds = true ↔
      previous.usesInaccessible userCredIds = true ∨
        (previous.credentials = none ∧ node.usesInaccessible userCredIds = true) := by
  cases credentials : previous.credentials with
  | none => simp [usesInaccessible, assign, credentials]
  | some _ => simp [usesInaccessible, assign, credentials]

end WorkflowNode

namespace EnterpriseWorkflowService

/-! ## The loop -/

/-- What the loop makes of the first node of an id. -/
def repaired (previous : List (WorkflowNode Value)) (node : WorkflowNode Value) : WorkflowNode Value :=
  (previous.find? (·.id = node.id)).elim node node.assign

theorem repaired_cases (previous : List (WorkflowNode Value)) (node : WorkflowNode Value) :
    repaired previous node = node ∨
      ∃ before ∈ previous, before.id = node.id ∧ repaired previous node = node.assign before := by
  unfold repaired
  cases found : previous.find? (·.id = node.id) with
  | none => exact Or.inl rfl
  | some before =>
    have same : before.id = node.id := by simpa using List.find?_some found
    exact Or.inr ⟨before, List.mem_of_find?_eq_some found, same, rfl⟩

@[simp] theorem repaired_id (previous : List (WorkflowNode Value)) (node : WorkflowNode Value) :
    (repaired previous node).id = node.id := by
  rcases repaired_cases previous node with same | ⟨before, _, sameId, assigned⟩
  · rw [same]
  · rw [assigned]
    exact sameId

theorem repaired_repaired (previous : List (WorkflowNode Value)) (node : WorkflowNode Value) :
    repaired previous (repaired previous node) = repaired previous node := by
  rw [repaired, repaired_id]
  unfold repaired
  cases previous.find? (·.id = node.id) with
  | none => rfl
  | some before => exact node.assign_assign before

theorem repaired_eq {previous : List (WorkflowNode Value)} (distinct : (previous.map (·.id)).Nodup)
    {node before : WorkflowNode Value} (member : before ∈ previous) (same : before.id = node.id) :
    repaired previous node = node.assign before := by
  unfold repaired
  cases found : previous.find? (·.id = node.id) with
  | none => exact absurd (List.find?_eq_none.mp found before member) (by simp [same])
  | some other =>
    have sameId : other.id = before.id := by simpa [same] using List.find?_some found
    rw [List.inj_on_of_nodup_map distinct (List.mem_of_find?_eq_some found) member sameId]
    rfl

theorem replaceNode_cons (previous rest : List (WorkflowNode Value)) (node : WorkflowNode Value) (id : String) :
    replaceNode previous (node :: rest) id =
      if node.id = id then repaired previous node :: rest else node :: replaceNode previous rest id := by
  unfold replaceNode repaired
  rw [List.findIdx?_cons]
  by_cases isFirst : node.id = id
  · subst isFirst
    cases previous.find? (·.id = node.id) <;> simp
  · cases rest.findIdx? (·.id = id) <;> cases previous.find? (·.id = id) <;> simp [isFirst]

theorem foldl_replaceNode_cons (previous : List (WorkflowNode Value)) (ids : List String)
    (node : WorkflowNode Value) (rest : List (WorkflowNode Value)) :
    ids.foldl (replaceNode previous) (node :: rest) =
      (if node.id ∈ ids then repaired previous node else node) ::
        (ids.filter (· ≠ node.id)).foldl (replaceNode previous) rest := by
  induction ids generalizing node rest with
  | nil => simp
  | cons id ids ih =>
    rw [List.foldl_cons, replaceNode_cons]
    split
    next same =>
      subst same
      rw [ih, repaired_id, repaired_repaired]
      simp
    next different =>
      rw [ih]
      simp [different, Ne.symm different]

/-- The nodes after the loop: the first of each of the ids is repaired. -/
theorem mem_foldl_replaceNode {previous nodes : List (WorkflowNode Value)} {ids : List String}
    {result : WorkflowNode Value} :
    result ∈ ids.foldl (replaceNode previous) nodes ↔
      ∃ earlier node later, nodes = earlier ++ node :: later ∧
        ((node.id ∈ ids ∧ node.id ∉ earlier.map (·.id) ∧ result = repaired previous node) ∨
          ((node.id ∈ ids → node.id ∈ earlier.map (·.id)) ∧ result = node)) := by
  induction nodes generalizing ids with
  | nil =>
    have kept : ids.foldl (replaceNode previous) [] = [] := by
      apply Loop.foldl_preserves (· = [])
      · rintro id _ _ rfl
        rfl
      · rfl
    simp [kept]
  | cons first rest ih =>
    rw [foldl_replaceNode_cons, List.mem_cons, ih]
    constructor
    · rintro (isFirst | ⟨earlier, node, later, rfl, what⟩)
      · refine ⟨[], first, rest, rfl, ?_⟩
        split at isFirst
        next inside => exact Or.inl ⟨inside, by simp, isFirst⟩
        next outside => exact Or.inr ⟨fun inside => absurd inside outside, isFirst⟩
      · refine ⟨first :: earlier, node, later, rfl, ?_⟩
        rcases what with ⟨inside, notEarlier, isResult⟩ | ⟨onlyLater, isResult⟩
        · have both := List.mem_filter.mp inside
          have different : node.id ≠ first.id := by simpa using both.2
          exact Or.inl ⟨both.1, by simp [different, List.mem_map.not.mp notEarlier], isResult⟩
        · refine Or.inr ⟨fun inside => ?_, isResult⟩
          by_cases same : node.id = first.id
          · simp [same]
          · exact List.mem_cons_of_mem _ (onlyLater (List.mem_filter.mpr ⟨inside, by simpa using same⟩))
    · rintro ⟨earlier, node, later, split, what⟩
      cases earlier with
      | nil =>
        obtain ⟨rfl, rfl⟩ := List.cons.inj split
        left
        rcases what with ⟨inside, _, isResult⟩ | ⟨outside, isResult⟩
        · rw [if_pos inside]
          exact isResult
        · rw [if_neg fun inside => by cases outside inside]
          exact isResult
      | cons head earlier =>
        obtain ⟨rfl, rfl⟩ := List.cons.inj split
        right
        refine ⟨earlier, node, later, rfl, ?_⟩
        rcases what with ⟨inside, notEarlier, isResult⟩ | ⟨onlyLater, isResult⟩
        · rw [List.map_cons, List.mem_cons, not_or] at notEarlier
          exact Or.inl ⟨List.mem_filter.mpr ⟨inside, by simpa using notEarlier.1⟩, notEarlier.2, isResult⟩
        · refine Or.inr ⟨fun inside => ?_, isResult⟩
          have both := List.mem_filter.mp inside
          have different : node.id ≠ first.id := by simpa using both.2
          exact (List.mem_cons.mp (onlyLater both.1)).resolve_left different

theorem validate_of_not_tampering {new previous : List (WorkflowNode Value)} {allowedCredentialIds : List String}
    (honest : ¬ IsTamperingAttempt new previous allowedCredentialIds) :
    validateWorkflowCredentialUsage new previous allowedCredentialIds =
      .ok (((getNodesWithInaccessibleCreds new allowedCredentialIds).map (·.id)).foldl (replaceNode previous) new) := by
  have known : ∀ node ∈ getNodesWithInaccessibleCreds new allowedCredentialIds, node.id ∈ previous.map (·.id) := by
    intro node member
    have both := List.mem_filter.mp member
    by_contra unknown
    exact honest ⟨node, both.1, both.2, unknown⟩
  unfold validateWorkflowCredentialUsage
  generalize getNodesWithInaccessibleCreds new allowedCredentialIds = nodes at known
  generalize new = state
  induction nodes generalizing state with
  | nil => rfl
  | cons node rest ih =>
    have isKnown := known node List.mem_cons_self
    have turn : checkNode previous state node = .ok (replaceNode previous state node.id) := by
      rw [checkNode, if_neg (not_not.mpr isKnown)]
    rw [Loop.foldlM_cons_ok turn]
    exact ih (fun other member => known other (List.mem_cons_of_mem _ member)) _

theorem validate_of_tampering {new previous : List (WorkflowNode Value)} {allowedCredentialIds : List String}
    (tampering : IsTamperingAttempt new previous allowedCredentialIds) (result : List (WorkflowNode Value)) :
    validateWorkflowCredentialUsage new previous allowedCredentialIds ≠ .ok result := by
  obtain ⟨node, member, uses, unknown⟩ := tampering
  have inside : node ∈ getNodesWithInaccessibleCreds new allowedCredentialIds := List.mem_filter.mpr ⟨member, uses⟩
  unfold validateWorkflowCredentialUsage
  generalize getNodesWithInaccessibleCreds new allowedCredentialIds = nodes at inside
  generalize new = state
  induction nodes generalizing state with
  | nil => cases inside
  | cons first rest ih =>
    intro returns
    obtain ⟨next, turn, returns⟩ := Loop.foldlM_cons_inv returns
    rcases List.mem_cons.mp inside with rfl | inRest
    · rw [checkNode, if_pos unknown] at turn
      cases turn
    · exact ih inRest next returns

/-! ## Every update -/

section Returns

variable {new previous : List (WorkflowNode Value)} {allowedCredentialIds : List String}
  (distinct : (previous.map (·.id)).Nodup) (honest : ¬ IsTamperingAttempt new previous allowedCredentialIds)

include honest

theorem exists_before {node : WorkflowNode Value}
    (inside : node.id ∈ (getNodesWithInaccessibleCreds new allowedCredentialIds).map (·.id)) :
    ∃ before ∈ previous, before.id = node.id := by
  obtain ⟨other, member, same⟩ := List.mem_map.mp inside
  have both := List.mem_filter.mp member
  by_contra none
  refine honest ⟨other, both.1, both.2, fun known => none ?_⟩
  obtain ⟨before, isBefore, sameId⟩ := List.mem_map.mp known
  exact ⟨before, isBefore, sameId.trans same⟩

include distinct

/-- What the loop leaves gains nothing when repeated nodes are unchanged and first ones add nothing. -/
theorem gainsNothing_iff :
    GainsNothing
        (((getNodesWithInaccessibleCreds new allowedCredentialIds).map (·.id)).foldl (replaceNode previous) new)
        previous allowedCredentialIds ↔
      RepeatsUnchanged new previous allowedCredentialIds ∧ FirstsAddNothing new previous allowedCredentialIds := by
  have inaccessible : ∀ node ∈ new, node.usesInaccessible allowedCredentialIds = true →
      node.id ∈ (getNodesWithInaccessibleCreds new allowedCredentialIds).map (·.id) := fun node member uses =>
    List.mem_map_of_mem (List.mem_filter.mpr ⟨member, uses⟩)
  have same : ∀ before ∈ previous, ∀ other ∈ previous, before.id = other.id → before = other :=
    fun _ member _ member' => List.inj_on_of_nodup_map distinct member member'
  constructor
  · intro gainsNothing
    constructor
    · rintro earlier node later rfl repeated uses before isBefore sameId
      obtain ⟨other, isOther, otherId, agrees⟩ :=
        gainsNothing node (mem_foldl_replaceNode.mpr ⟨earlier, node, later, rfl, Or.inr ⟨fun _ => repeated, rfl⟩⟩) uses
      rw [same before isBefore other isOther (sameId.trans otherId.symm)]
      exact agrees
    · rintro earlier node later rfl isFirst ⟨other, isOther, otherId, uses⟩ before isBefore sameId reached
      have inside := otherId ▸ inaccessible other isOther uses
      have isResult := (@mem_foldl_replaceNode _ previous _ _ (repaired previous node)).mpr
        ⟨earlier, node, later, rfl, Or.inl ⟨inside, isFirst, rfl⟩⟩
      rw [repaired_eq distinct isBefore sameId] at isResult
      obtain ⟨found, isFound, foundId, agrees⟩ :=
        gainsNothing _ isResult (WorkflowNode.usesInaccessible_assign.mpr reached)
      rw [same found isFound before isBefore foundId] at agrees
      exact WorkflowNode.agrees_assign.mp agrees
  · rintro ⟨repeatsUnchanged, firstsAddNothing⟩ result member uses
    obtain ⟨earlier, node, later, rfl, ⟨inside, isFirst, rfl⟩ | ⟨onlyLater, rfl⟩⟩ := mem_foldl_replaceNode.mp member
    · obtain ⟨before, isBefore, sameId⟩ := exists_before honest inside
      rw [repaired_eq distinct isBefore sameId] at uses ⊢
      obtain ⟨other, isOther, otherId⟩ := List.mem_map.mp inside
      have both := List.mem_filter.mp isOther
      have addsNothing := firstsAddNothing earlier node later rfl isFirst ⟨other, both.1, otherId, both.2⟩ before
        isBefore sameId (WorkflowNode.usesInaccessible_assign.mp uses)
      exact ⟨before, isBefore, rfl, WorkflowNode.agrees_assign.mpr addsNothing⟩
    · have inside := inaccessible result (by simp) uses
      obtain ⟨before, isBefore, sameId⟩ := exists_before honest inside
      exact ⟨before, isBefore, sameId,
        repeatsUnchanged earlier result later rfl (onlyLater inside) uses before isBefore sameId⟩

end Returns

/-- An update that is not refused gains no use of credentials exactly when it keeps the repeated nodes and adds no
property to nodes with credentials out of reach. -/
theorem gainsNothing_iff_of_distinct {new previous : List (WorkflowNode Value)}
    (distinct : (previous.map (·.id)).Nodup) (allowedCredentialIds : List String) :
    (∀ result, validateWorkflowCredentialUsage new previous allowedCredentialIds = .ok result →
        GainsNothing result previous allowedCredentialIds) ↔
      (IsTamperingAttempt new previous allowedCredentialIds ∨
        (RepeatsUnchanged new previous allowedCredentialIds ∧ FirstsAddNothing new previous allowedCredentialIds)) := by
  by_cases tampering : IsTamperingAttempt new previous allowedCredentialIds
  · exact iff_of_true (fun result returns => absurd returns (validate_of_tampering tampering result)) (Or.inl tampering)
  · rw [or_iff_right tampering, ← gainsNothing_iff distinct tampering, validate_of_not_tampering tampering]
    simp

def exampleNode (parameters : String) : WorkflowNode String where
  id := "1"
  name := "Query"
  position := (0, 0)
  disabled := none
  credentials := some [("postgres", { id := some "7", name := "Production" })]
  fields := fun field => if field = "parameters" then some parameters else none

theorem gainsNothing_iff_of_example :
    (∀ result, validateWorkflowCredentialUsage [exampleNode "changed"] [exampleNode "select"] [] = .ok result →
        GainsNothing result [exampleNode "select"] []) ↔
      (IsTamperingAttempt [exampleNode "changed"] [exampleNode "select"] [] ∨
        (RepeatsUnchanged [exampleNode "changed"] [exampleNode "select"] [] ∧
          FirstsAddNothing [exampleNode "changed"] [exampleNode "select"] [])) :=
  gainsNothing_iff_of_distinct (by decide) []

/-- The second node of an id keeps its changed parameters, and the credential of the owner. -/
theorem not_gainsNothing_of_repeated_id :
    ¬ ∀ new previous : List (WorkflowNode String), (previous.map (·.id)).Nodup → ∀ allowedCredentialIds result,
      validateWorkflowCredentialUsage new previous allowedCredentialIds = .ok result →
        GainsNothing result previous allowedCredentialIds := by
  intro gainsNothing
  obtain ⟨before, member, _, _, fields⟩ :=
    gainsNothing [exampleNode "select", exampleNode "changed"] [exampleNode "select"] (by decide) []
      [((exampleNode "select").assign (exampleNode "select")).assign (exampleNode "select"), exampleNode "changed"] rfl
      (exampleNode "changed") (by simp) (by decide)
  obtain rfl := List.mem_singleton.mp member
  have parameters := congrFun fields "parameters"
  revert parameters
  decide

end EnterpriseWorkflowService

end N8n.Workflows
