import N8n.Library.Memo
import N8n.Workflows.EnterpriseWorkflowService

/-! # Replaced credentials

`replaceInvalidCredentials` in `packages/cli/src/workflow-helpers.ts`.  The
credentials that the nodes of a workflow refer to by name, or by an id that is not
there, are looked up, and two caches keep what the lookups have found.
-/

namespace N8n.Workflows

structure CredentialsEntity where
  id : String
  name : String
  type : String
deriving DecidableEq, Repr

/-- The `id` is the primary key. -/
structure CredentialsTable where
  rows : List CredentialsEntity
  nodupIds : (rows.map (·.id)).Nodup

namespace CredentialsTable

def findBy (table : CredentialsTable) (name type : String) : List CredentialsEntity :=
  table.rows.filter fun row => row.name = name ∧ row.type = type

def findOneBy (table : CredentialsTable) (id type : String) : Option CredentialsEntity :=
  table.rows.find? fun row => row.id = id ∧ row.type = type

end CredentialsTable

/-- `nodeCredentials` in the old style, a name, or with an id, which may be null. -/
inductive NodeCredentials
  | name (name : String)
  | details (details : INodeCredentialsDetails)
deriving DecidableEq, Repr

abbrev Reference := String × NodeCredentials

namespace WorkflowHelpers

/-- The node, with the properties that are read. -/
structure INode where
  credentials : Option (OrderedMap String NodeCredentials)
  disabled : Option Bool
deriving DecidableEq

structure WorkflowEntity where
  nodes : Option (List INode)

structure Caches where
  credentialsByName : OrderedMap String (OrderedMap String INodeCredentialsDetails) := ∅
  credentialsById : OrderedMap String (OrderedMap String INodeCredentialsDetails) := ∅

/-- `credentials?.length === 1`, with the one found. -/
def single? {α : Type} : List α → Option α
  | [item] => some item
  | _ => none

/-- The branch of a reference without an id, with what is put in its place, if anything is. -/
def replaceByName (table : CredentialsTable) (caches : Caches) (nodeCredentialType name : String) :
    Caches × Option INodeCredentialsDetails :=
  -- init cache for type
  let byName := caches.credentialsByName.initAt nodeCredentialType
  match byName.getIn nodeCredentialType name with
  | some cached => ({ caches with credentialsByName := byName }, some cached)
  | none =>
    match single? (table.findBy name nodeCredentialType) with
    | some credentials =>
      let found : INodeCredentialsDetails := { id := some credentials.id, name := credentials.name }
      ({ caches with credentialsByName := byName.setIn nodeCredentialType name found }, some found)
    | none =>
      -- the cache gets the name with a null id, the node keeps what it has
      let invalid : INodeCredentialsDetails := { id := none, name := name }
      ({ caches with credentialsByName := byName.setIn nodeCredentialType name invalid }, none)

def replaceById (table : CredentialsTable) (caches : Caches) (nodeCredentialType id name : String) :
    Caches × Option INodeCredentialsDetails :=
  let byId := caches.credentialsById.initAt nodeCredentialType
  match byId.getIn nodeCredentialType id with
  | some cached => ({ caches with credentialsById := byId }, some cached)
  | none =>
    match table.findOneBy id nodeCredentialType with
    | some credentials =>
      let found : INodeCredentialsDetails := { id := some credentials.id, name := credentials.name }
      ({ caches with credentialsById := byId.setIn nodeCredentialType id found }, some found)
    | none =>
      match single? (table.findBy name nodeCredentialType) with
      | some credentials =>
        -- filed under the id of the credential found by its name
        let found : INodeCredentialsDetails := { id := some credentials.id, name := credentials.name }
        ({ caches with credentialsById := byId.setIn nodeCredentialType credentials.id found }, some found)
      | none =>
        let nodeCredentials : INodeCredentialsDetails := { id := some id, name := name }
        ({ caches with credentialsById := byId.setIn nodeCredentialType id nodeCredentials }, none)

def resolve (table : CredentialsTable) (caches : Caches) (nodeCredentialType : String) :
    NodeCredentials → Caches × Option INodeCredentialsDetails
  | .name name => replaceByName table caches nodeCredentialType name
  | .details { id := none, name } => replaceByName table caches nodeCredentialType name
  | .details { id := some id, name } => replaceById table caches nodeCredentialType id name

/-- A turn of that loop, with the credentials of the node as they have become. -/
def replaceCredentials (table : CredentialsTable) (state : Caches × OrderedMap String NodeCredentials)
    (entry : Reference) : Caches × OrderedMap String NodeCredentials :=
  match resolve table state.1 entry.1 entry.2 with
  | (caches, some value) => (caches, state.2.set entry.1 (.details value))
  | (caches, none) => (caches, state.2)

/-- A turn of the loop over the nodes. -/
def replaceNode (table : CredentialsTable) (caches : Caches) (node : INode) : Caches × INode :=
  match node.credentials, node.disabled with
  | none, _ => (caches, node)
  | _, some true => (caches, node)
  | some credentials, _ =>
    let (caches, credentials) := credentials.entries.foldl (replaceCredentials table) (caches, credentials)
    (caches, { node with credentials := some credentials })

def replaceInvalidCredentials (table : CredentialsTable) (workflow : WorkflowEntity) : WorkflowEntity :=
  match workflow.nodes with
  | none => workflow
  | some nodes => { workflow with nodes := some (Memo.answers (replaceNode table) {} nodes) }

/-! ## What the references become -/

def turn (table : CredentialsTable) (caches : Caches) (entry : Reference) :
    Caches × Reference :=
  let (caches, value) := resolve table caches entry.1 entry.2
  (caches, entry.1, value.elim entry.2 .details)

/-- What the code makes of a reference with empty caches. -/
def resolveAlone (table : CredentialsTable) (nodeCredentialType : String) (nodeCredentials : NodeCredentials) :
    NodeCredentials :=
  (turn table {} (nodeCredentialType, nodeCredentials)).2.2

def INode.references (node : INode) : List Reference :=
  match node.credentials, node.disabled with
  | none, _ => []
  | _, some true => []
  | some credentials, _ => credentials.entries

namespace WorkflowEntity

/-- The credential references of the enabled nodes, in the order of the loops. -/
def references (workflow : WorkflowEntity) : List Reference :=
  (workflow.nodes.getD []).flatMap (·.references)

def referenceAt (workflow : WorkflowEntity) (index : Nat) (nodeCredentialType : String) : Option NodeCredentials :=
  ((workflow.nodes.getD [])[index]?).bind fun node =>
    if node.disabled = some true then none else node.credentials.bind (·.get? nodeCredentialType)

end WorkflowEntity

/-- The caches make no difference: every reference of an enabled node becomes what it becomes alone, and so equal
references end up equal. -/
def CachesUnseen (table : CredentialsTable) (workflow : WorkflowEntity) : Prop :=
  (∀ index type nodeCredentials, workflow.referenceAt index type = some nodeCredentials →
    (replaceInvalidCredentials table workflow).referenceAt index type =
      some (resolveAlone table type nodeCredentials)) ∧
  ∀ index index' type nodeCredentials, workflow.referenceAt index type = some nodeCredentials →
    workflow.referenceAt index' type = some nodeCredentials →
    (replaceInvalidCredentials table workflow).referenceAt index type =
      (replaceInvalidCredentials table workflow).referenceAt index' type

def oldStyleName : NodeCredentials → Option String
  | .name name => some name
  | .details { id := none, name } => some name
  | .details { id := some _, name := _ } => none

/-- The later reference meets what the earlier one has left in a cache, and that is not what it becomes alone: it is a
string with a name that no single credential of its type has, and the name was looked up before; or its id is not there,
and the id was looked up before with another name that no single credential of the type has. -/
def Misled (table : CredentialsTable) (earlier later : Reference) : Prop :=
  (∃ name, later.2 = .name name ∧ earlier.1 = later.1 ∧ oldStyleName earlier.2 = some name ∧
    single? (table.findBy name later.1) = none) ∨
  ∃ id name name', later.2 = .details { id := some id, name := name } ∧
    earlier = (later.1, .details { id := some id, name := name' }) ∧ name' ≠ name ∧
    table.findOneBy id later.1 = none ∧ single? (table.findBy name' later.1) = none

/-! ## The lookups -/

theorem single?_eq_some {α : Type} {items : List α} {item : α} : single? items = some item ↔ items = [item] := by
  rcases items with _ | ⟨first, _ | ⟨second, rest⟩⟩ <;> simp [single?]

section Lookups

variable {table : CredentialsTable} {seen : List Reference} {caches : Caches} {type type' id id' name name' : String}
  {row : CredentialsEntity}

theorem findOneBy_self (member : row ∈ table.rows) : table.findOneBy row.id row.type = some row := by
  cases located : table.findOneBy row.id row.type with
  | none =>
    have absent := List.find?_eq_none.mp located row member
    simp at absent
  | some other =>
    have same := List.find?_some located
    simp only [decide_eq_true_eq] at same
    rw [List.inj_on_of_nodup_map table.nodupIds (List.mem_of_find?_eq_some located) member same.1]

/-- A credential that is found, by its id or by its name, is found by its id. -/
theorem findOneBy_of_found (found : (table.findOneBy id type).or (single? (table.findBy name type)) = some row) :
    table.findOneBy row.id type = some row := by
  obtain byId | ⟨_, byName⟩ := Option.or_eq_some_iff.mp found
  · have asked := List.find?_some byId
    simp only [decide_eq_true_eq] at asked
    rw [← asked.2]
    exact findOneBy_self (List.mem_of_find?_eq_some byId)
  · have member : row ∈ table.findBy name type := by simp [single?_eq_some.mp byName]
    obtain ⟨inside, asked⟩ := List.mem_filter.mp member
    simp only [decide_eq_true_eq] at asked
    rw [← asked.2]
    exact findOneBy_self inside

/-- What a cache gets: the credential that was found, or what stands for none. -/
def kept (found : Option CredentialsEntity) (invalid : INodeCredentialsDetails) : INodeCredentialsDetails :=
  found.elim invalid fun row => { id := some row.id, name := row.name }

def keptForName (table : CredentialsTable) (type name : String) : INodeCredentialsDetails :=
  kept (single? (table.findBy name type)) { id := none, name := name }

def keptForId (table : CredentialsTable) (type id name : String) : INodeCredentialsDetails :=
  kept ((table.findOneBy id type).or (single? (table.findBy name type))) { id := some id, name := name }

theorem keptForId_of_found (isRow : table.findOneBy id' type = some row)
    (filed : (keptForId table type id name).id = some id') :
    keptForId table type id name = { id := some row.id, name := row.name } := by
  rw [keptForId] at filed ⊢
  cases found : (table.findOneBy id type).or (single? (table.findBy name type)) with
  | none =>
    rw [found] at filed
    obtain rfl : id = id' := Option.some.inj filed
    rw [isRow] at found
    cases found
  | some other =>
    rw [found] at filed
    obtain rfl : other.id = id' := Option.some.inj filed
    rw [findOneBy_of_found found] at isRow
    rw [Option.some.inj isRow]
    rfl

theorem keptForId_of_missing (absent : table.findOneBy id' type = none) :
    (keptForId table type id name).id = some id' ↔ id = id' ∧ single? (table.findBy name type) = none := by
  rw [keptForId]
  cases found : (table.findOneBy id type).or (single? (table.findBy name type)) with
  | none => simp [kept, (Option.or_eq_none_iff.mp found).2]
  | some other =>
    have otherId : other.id ≠ id' := by
      rintro rfl
      exact absurd (absent.symm.trans (findOneBy_of_found found)) nofun
    have helps : ¬(id = id' ∧ single? (table.findBy name type) = none) := by
      rintro ⟨rfl, unhelpful⟩
      rw [absent, unhelpful] at found
      cases found
    simp [kept, otherId, helps]

/-! ## One turn -/

theorem replaceByName_answer : (replaceByName table caches type name).2 =
    (caches.credentialsByName.getIn type name).or
      ((single? (table.findBy name type)).map fun row => { id := some row.id, name := row.name }) := by
  simp only [replaceByName, OrderedMap.getIn_initAt]
  cases caches.credentialsByName.getIn type name with
  | some cached => rfl
  | none => cases single? (table.findBy name type) <;> rfl

@[simp] theorem credentialsById_replaceByName :
    (replaceByName table caches type name).1.credentialsById = caches.credentialsById := by
  simp only [replaceByName]
  split
  · rfl
  · split <;> rfl

theorem getIn_replaceByName : (replaceByName table caches type name).1.credentialsByName.getIn type' name' =
    if type' = type ∧ name' = name then
      some ((caches.credentialsByName.getIn type name).getD (keptForName table type name))
    else caches.credentialsByName.getIn type' name' := by
  simp only [replaceByName, OrderedMap.getIn_initAt, keptForName]
  cases cached : caches.credentialsByName.getIn type name with
  | some details =>
    by_cases same : type' = type ∧ name' = name
    · simp [same, cached]
    · simp [same]
  | none => cases single? (table.findBy name type) <;> simp [OrderedMap.getIn_setIn, kept]

@[simp] theorem credentialsByName_replaceById :
    (replaceById table caches type id name).1.credentialsByName = caches.credentialsByName := by
  simp only [replaceById]
  split
  · rfl
  · split
    · rfl
    · split <;> rfl

theorem replaceById_cached {details : INodeCredentialsDetails}
    (cached : caches.credentialsById.getIn type id = some details) :
    (replaceById table caches type id name).2 = some details ∧
      (replaceById table caches type id name).1.credentialsById.getIn type' id' =
        caches.credentialsById.getIn type' id' := by
  simp [replaceById, cached]

theorem replaceById_looked (uncached : caches.credentialsById.getIn type id = none) :
    (((replaceById table caches type id name).2.elim { id := some id, name := name } fun details => details) =
        keptForId table type id name) ∧
      (replaceById table caches type id name).1.credentialsById.getIn type' id' =
        if type' = type ∧ (keptForId table type id name).id = some id' then some (keptForId table type id name)
        else caches.credentialsById.getIn type' id' := by
  cases located : table.findOneBy id type with
  | some row =>
    have asked := List.find?_some located
    simp only [decide_eq_true_eq] at asked
    simp [replaceById, uncached, keptForId, located, OrderedMap.getIn_setIn, kept, asked.1, eq_comm]
  | none =>
    cases single : single? (table.findBy name type) <;>
      simp [replaceById, uncached, keptForId, located, single, OrderedMap.getIn_setIn, kept, eq_comm]

/-! ## A reference alone -/

theorem resolveAlone_name : resolveAlone table type (.name name) =
    (single? (table.findBy name type)).elim (.name name) fun row =>
      .details { id := some row.id, name := row.name } := by
  simp only [resolveAlone, turn, resolve, replaceByName_answer, OrderedMap.getIn_empty, Option.none_or]
  cases single? (table.findBy name type) <;> rfl

theorem resolveAlone_nullId :
    resolveAlone table type (.details { id := none, name := name }) = .details (keptForName table type name) := by
  simp only [resolveAlone, turn, resolve, replaceByName_answer, OrderedMap.getIn_empty, Option.none_or, keptForName]
  cases single? (table.findBy name type) <;> rfl

theorem turn_id_uncached (uncached : caches.credentialsById.getIn type id = none) :
    (turn table caches (type, .details { id := some id, name := name })).2 =
      (type, .details (keptForId table type id name)) := by
  rw [← (@replaceById_looked table caches type type id id name uncached).1]
  simp only [turn, resolve]
  cases (replaceById table caches type id name).2 <;> rfl

theorem resolveAlone_id :
    resolveAlone table type (.details { id := some id, name := name }) = .details (keptForId table type id name) := by
  rw [resolveAlone, turn_id_uncached rfl]

/-! ## What the caches hold -/

def asksName (type name : String) (entry : Reference) : Bool := entry.1 = type ∧ oldStyleName entry.2 = some name

/-- A reference with the id and a name that no single credential of the type has. -/
def missesName (table : CredentialsTable) (type id : String) (entry : Reference) : Bool :=
  match entry.2 with
  | .details { id := some id', name } => entry.1 = type ∧ id' = id ∧ single? (table.findBy name type) = none
  | _ => false

def nameOf : NodeCredentials → String
  | .name name => name
  | .details details => details.name

/-- The caches after the references so far.  A name that was looked up has its entry.  An id that is not there has the
entry of the first reference whose name did not help, and an id that is there can only have its credential. -/
structure Remembers (table : CredentialsTable) (seen : List Reference) (caches : Caches) : Prop where
  byName : ∀ type name, caches.credentialsByName.getIn type name =
    if seen.any (asksName type name) then some (keptForName table type name) else none
  missing : ∀ type id, table.findOneBy id type = none → caches.credentialsById.getIn type id =
    (seen.find? (missesName table type id)).map fun entry => { id := some id, name := nameOf entry.2 }
  found : ∀ type id row, table.findOneBy id type = some row →
    ∀ details, caches.credentialsById.getIn type id = some details → details = { id := some row.id, name := row.name }

theorem Remembers.start (table : CredentialsTable) : Remembers table [] {} where
  byName := by simp
  missing := by simp
  found := by simp

theorem asksName_iff {entry : Reference} :
    asksName type name entry = true ↔ entry.1 = type ∧ oldStyleName entry.2 = some name := by
  simp [asksName]

theorem missesName_iff {entry : Reference} : missesName table type id entry = true ↔
    entry = (type, .details { id := some id, name := nameOf entry.2 }) ∧
      single? (table.findBy (nameOf entry.2) type) = none := by
  obtain ⟨type', name | ⟨_ | id', name⟩⟩ := entry <;> simp [missesName, nameOf, and_assoc]

theorem missesName_details : missesName table type' id' (type, .details { id := some id, name := name }) = true ↔
    type = type' ∧ id = id' ∧ single? (table.findBy name type') = none := by
  simp [missesName]

/-- A reference without an id was looked up. -/
theorem Remembers.replaceByName (remembers : Remembers table seen caches) {nodeCredentials : NodeCredentials}
    (old : oldStyleName nodeCredentials = some name) :
    Remembers table (seen ++ [(type, nodeCredentials)]) (replaceByName table caches type name).1 where
  byName type' name' := by
    rw [getIn_replaceByName, remembers.byName, remembers.byName, List.any_append]
    by_cases same : type' = type ∧ name' = name
    · obtain ⟨rfl, rfl⟩ := same
      cases seen.any (asksName type' name') <;> simp [asksName, old]
    · have other : asksName type' name' (type, nodeCredentials) = false := by
        simp only [asksName, old, Option.some.injEq, decide_eq_false_iff_not]
        exact fun equal => same ⟨equal.1.symm, equal.2.symm⟩
      rw [if_neg same, List.any_cons, other, List.any_nil, Bool.or_false, Bool.or_false]
  missing type' id' absent := by
    have other : missesName table type' id' (type, nodeCredentials) = false := by
      obtain name | ⟨_ | _, _⟩ := nodeCredentials
      · rfl
      · rfl
      · cases old
    simp [remembers.missing type' id' absent, List.find?_append, other]
  found type' id' row isRow details cached := by
    rw [credentialsById_replaceByName] at cached
    exact remembers.found type' id' row isRow details cached

/-- A reference with an id was looked up, or answered from the cache. -/
theorem Remembers.replaceById (remembers : Remembers table seen caches) :
    Remembers table (seen ++ [(type, .details { id := some id, name := name })])
      (replaceById table caches type id name).1 where
  byName type' name' := by
    have other : asksName type' name' (type, .details { id := some id, name := name }) = false := by
      simp [asksName, oldStyleName]
    rw [credentialsByName_replaceById, remembers.byName, List.any_append, List.any_cons, other, List.any_nil,
      Bool.or_false, Bool.or_false]
  missing type' id' absent := by
    have kept_ := remembers.missing type' id' absent
    rw [List.find?_append]
    cases cached : caches.credentialsById.getIn type id with
    | some details =>
      rw [(replaceById_cached cached).2, kept_]
      cases located : seen.find? (missesName table type' id') with
      | some first => rfl
      | none =>
        -- nothing is cached for this id, so the reference has another one
        have other : ¬missesName table type' id' (type, .details { id := some id, name := name }) = true := by
          intro misses
          obtain ⟨rfl, rfl, _⟩ := missesName_details.mp misses
          rw [kept_, located] at cached
          cases cached
        simp [other]
    | none =>
      rw [(replaceById_looked cached).2]
      by_cases misses : missesName table type' id' (type, .details { id := some id, name := name }) = true
      · obtain ⟨rfl, rfl, unhelpful⟩ := missesName_details.mp misses
        rw [kept_, Option.map_eq_none_iff] at cached
        simp [cached, misses, nameOf, keptForId, kept, absent, unhelpful]
      · have notFiled : ¬(type' = type ∧ (keptForId table type id name).id = some id') := by
          rintro ⟨rfl, filed⟩
          exact misses (missesName_details.mpr ⟨rfl, (keptForId_of_missing absent).mp filed⟩)
        simp [notFiled, misses, kept_]
  found type' id' row isRow details isKept := by
    cases cached : caches.credentialsById.getIn type id with
    | some _ =>
      rw [(replaceById_cached cached).2] at isKept
      exact remembers.found type' id' row isRow details isKept
    | none =>
      rw [(replaceById_looked cached).2] at isKept
      split at isKept
      · rename_i filed
        obtain ⟨rfl, filed⟩ := filed
        rw [← Option.some.inj isKept]
        exact keptForId_of_found isRow filed
      · exact remembers.found type' id' row isRow details isKept

theorem Remembers.turn (entry : Reference) (remembers : Remembers table seen caches) :
    Remembers table (seen ++ [entry]) (turn table caches entry).1 := by
  obtain ⟨type, name | ⟨_ | id, name⟩⟩ := entry
  · exact remembers.replaceByName rfl
  · exact remembers.replaceByName rfl
  · exact remembers.replaceById

theorem Remembers.stateAfter (table : CredentialsTable) (seen : List Reference) :
    Remembers table seen (Memo.stateAfter (WorkflowHelpers.turn table) {} seen) :=
  Memo.stateAfter_induction (.start table) (fun _ _ entry remembers => remembers.turn entry) seen

/-! ## When a turn is misled -/

/-- What was seen before has left something in a cache that the reference does not become alone. -/
def MisledBy (table : CredentialsTable) (seen : List Reference) (type : String) : NodeCredentials → Prop
  | .name name => seen.any (asksName type name) = true ∧ single? (table.findBy name type) = none
  | .details { id := none, name := _ } => False
  | .details { id := some id, name } => table.findOneBy id type = none ∧
      ∃ first, seen.find? (missesName table type id) = some first ∧ nameOf first.2 ≠ name

theorem turn_eq_iff (remembers : Remembers table seen caches) (entry : Reference) :
    (WorkflowHelpers.turn table caches entry).2 = (entry.1, resolveAlone table entry.1 entry.2) ↔
      ¬MisledBy table seen entry.1 entry.2 := by
  obtain ⟨type, name | ⟨_ | id, name⟩⟩ := entry
  · simp only [WorkflowHelpers.turn, resolve, replaceByName_answer, remembers.byName, resolveAlone_name, MisledBy,
      Prod.mk.injEq, true_and, keptForName]
    cases seen.any (asksName type name) <;> cases single? (table.findBy name type) <;> simp [kept]
  · simp only [WorkflowHelpers.turn, resolve, replaceByName_answer, remembers.byName, resolveAlone_nullId, MisledBy,
      Prod.mk.injEq, true_and, keptForName]
    cases seen.any (asksName type name) <;> cases single? (table.findBy name type) <;> simp [kept]
  · simp only [resolveAlone_id, MisledBy]
    cases cached : caches.credentialsById.getIn type id with
    | none =>
      have unseen : ¬(table.findOneBy id type = none ∧
          ∃ first, seen.find? (missesName table type id) = some first ∧ nameOf first.2 ≠ name) := by
        rintro ⟨absent, first, isFirst, _⟩
        rw [remembers.missing type id absent, isFirst] at cached
        cases cached
      rw [turn_id_uncached cached]
      exact iff_of_true rfl unseen
    | some details =>
      have answer : (WorkflowHelpers.turn table caches (type, .details { id := some id, name := name })).2 =
          (type, .details details) := by
        simp [WorkflowHelpers.turn, resolve, (@replaceById_cached table caches type type id id name details cached).1]
      rw [answer]
      cases located : table.findOneBy id type with
      | some row =>
        obtain rfl := remembers.found type id row located details cached
        simp [keptForId, kept, located]
      | none =>
        rw [remembers.missing type id located] at cached
        obtain ⟨first, isFirst, rfl⟩ := Option.map_eq_some_iff.mp cached
        have unhelpful := (missesName_iff.mp (List.find?_some isFirst)).2
        have same : ({ id := some id, name := nameOf first.2 } : INodeCredentialsDetails) =
            keptForId table type id name ↔ nameOf first.2 = name := by
          constructor
          · intro equal
            have filed := (keptForId_of_missing located).mp (congrArg (·.id) equal).symm
            simpa [keptForId, kept, located, filed.2] using congrArg (·.name) equal
          · rintro rfl
            simp [keptForId, kept, located, unhelpful]
        simp [same, isFirst]

/-- The references become what they become alone if and only if no pair of them misleads. -/
theorem answers_eq_iff {references : List Reference} :
    Memo.answers (WorkflowHelpers.turn table) {} references =
        references.map (fun entry => (entry.1, resolveAlone table entry.1 entry.2)) ↔
      references.Pairwise fun earlier later => ¬Misled table earlier later := by
  rw [Memo.answers_eq_map_iff, Memo.pairwise_iff_split]
  simp only [turn_eq_iff (Remembers.stateAfter table _)]
  constructor
  · intro unmisled before entry after split earlier member misled
    obtain ⟨name, isName, sameType, asked, unhelpful⟩ | ⟨id, name, name', isDetails, rfl, different, absent,
      unhelpful⟩ :=
      misled
    · apply unmisled before entry after split
      rw [isName]
      exact ⟨List.any_eq_true.mpr ⟨earlier, member, asksName_iff.mpr ⟨sameType, asked⟩⟩, unhelpful⟩
    · -- all references with the id have the name of the first one that did not help
      apply different
      have agree := @Memo.agrees_of_first _ _ (fun other => ∃ name, other = (entry.1, .details { id := some id, name }))
        (missesName table entry.1 id) (fun other => nameOf other.2) references
        (fun other misses => ⟨_, (missesName_iff.mp misses).1⟩)
      have same := agree (by
          rintro before other after split ⟨name, rfl⟩ first isFirst
          by_contra otherName
          exact unmisled before _ after split ⟨absent, first, isFirst, otherName⟩)
        split ⟨name, Prod.ext rfl isDetails⟩ member (missesName_details.mpr ⟨rfl, rfl, unhelpful⟩)
      rwa [isDetails] at same
  · intro pairwise before entry after split misled
    have apart := pairwise before entry after split
    obtain ⟨type, name | ⟨_ | id, name⟩⟩ := entry
    · obtain ⟨asked, unhelpful⟩ := misled
      obtain ⟨earlier, member, asks⟩ := List.any_eq_true.mp asked
      obtain ⟨sameType, sameName⟩ := asksName_iff.mp asks
      exact apart earlier member (.inl ⟨name, rfl, sameType, sameName, unhelpful⟩)
    · exact misled
    · obtain ⟨absent, first, isFirst, different⟩ := misled
      obtain ⟨first_eq, unhelpful⟩ := missesName_iff.mp (List.find?_some isFirst)
      exact apart first (List.mem_of_find?_eq_some isFirst)
        (.inr ⟨id, name, nameOf first.2, rfl, first_eq, different, absent, unhelpful⟩)

end Lookups

/-! ## The loops -/

/-- The loop over the credentials of a node writes what each turn gives where the reference stands. -/
theorem foldl_replaceCredentials {table : CredentialsTable} {caches : Caches}
    {credentials : OrderedMap String NodeCredentials} {done rest : List Reference}
    (split : credentials.entries = done ++ rest) :
    (rest.foldl (replaceCredentials table) (caches, credentials)).1 =
        Memo.stateAfter (WorkflowHelpers.turn table) caches rest ∧
      (rest.foldl (replaceCredentials table) (caches, credentials)).2.entries =
        done ++ Memo.answers (WorkflowHelpers.turn table) caches rest := by
  induction rest generalizing caches credentials done with
  | nil => exact ⟨rfl, split⟩
  | cons entry rest ih =>
    obtain ⟨type, nodeCredentials⟩ := entry
    rw [List.foldl_cons, Memo.stateAfter_cons, Memo.answers_cons]
    cases result : resolve table caches type nodeCredentials with
    | mk caches' value =>
      cases value with
      | none =>
        have next := @ih caches' credentials (done ++ [(type, nodeCredentials)]) (by simpa using split)
        simpa [replaceCredentials, WorkflowHelpers.turn, result] using next
      | some value =>
        have written := OrderedMap.entries_set_of_split split (.details value)
        have next := @ih caches' (credentials.set type (.details value)) (done ++ [(type, .details value)])
          (by rw [written]; simp)
        simpa [replaceCredentials, WorkflowHelpers.turn, result] using next

/-- The node with every reference resolved alone, if it is enabled. -/
def resolveNode (table : CredentialsTable) (node : INode) : INode :=
  if node.disabled = some true then node
  else { node with credentials := node.credentials.map (·.mapEntries (resolveAlone table)) }

variable (table : CredentialsTable)

theorem keys_answers (caches : Caches) (entries : List Reference) :
    (Memo.answers (WorkflowHelpers.turn table) caches entries).map Prod.fst = entries.map Prod.fst := by
  induction entries generalizing caches with
  | nil => rfl
  | cons entry rest ih =>
    rw [Memo.answers_cons, List.map_cons, List.map_cons, ih]
    rfl

/-- The loop over a node's credentials: nothing happens to a node that is disabled or has none; otherwise the entries
are the answers. -/
theorem replaceNode_cases (caches : Caches) (node : INode) :
    (node.references = [] ∧ (replaceNode table caches node) = (caches, node) ∧ resolveNode table node = node) ∨
    ∃ credentials credentials', node.credentials = some credentials ∧ node.disabled ≠ some true ∧
      node.references = credentials.entries ∧
      replaceNode table caches node =
        (Memo.stateAfter (WorkflowHelpers.turn table) caches credentials.entries,
          { node with credentials := some credentials' }) ∧
      credentials'.entries = Memo.answers (WorkflowHelpers.turn table) caches credentials.entries := by
  obtain ⟨credentials, disabled⟩ := node
  cases credentials with
  | none =>
    refine .inl ⟨rfl, rfl, ?_⟩
    simp [resolveNode]
  | some credentials =>
    have loop := @foldl_replaceCredentials table caches credentials [] credentials.entries rfl
    cases disabled with
    | none => exact .inr ⟨credentials, _, rfl, nofun, rfl, by simp only [replaceNode, ← loop.1], loop.2⟩
    | some disabled =>
      cases disabled with
      | true => exact .inl ⟨rfl, rfl, rfl⟩
      | false => exact .inr ⟨credentials, _, rfl, nofun, rfl, by simp only [replaceNode, ← loop.1], loop.2⟩

theorem replaceNode_state (caches : Caches) (node : INode) :
    (replaceNode table caches node).1 = Memo.stateAfter (WorkflowHelpers.turn table) caches node.references := by
  obtain ⟨noReferences, same, _⟩ | ⟨credentials, credentials', _, _, isReferences, result, _⟩ :=
    replaceNode_cases table caches node
  · rw [same, noReferences]
    rfl
  · rw [result, isReferences]

theorem replaceNode_eq_iff (caches : Caches) (node : INode) :
    (replaceNode table caches node).2 = resolveNode table node ↔
      Memo.answers (WorkflowHelpers.turn table) caches node.references =
        node.references.map fun entry => (entry.1, resolveAlone table entry.1 entry.2) := by
  obtain ⟨noReferences, same, alone⟩ | ⟨credentials, credentials', has, enabled, isReferences, result, entries⟩ :=
    replaceNode_cases table caches node
  · simp [noReferences, same, alone]
  · rw [result, isReferences, ← entries, resolveNode, if_neg enabled, has]
    simp only [Option.map_some, INode.mk.injEq, Option.some.injEq, and_true]
    exact ⟨fun equal => by rw [equal]; rfl, fun equal => OrderedMap.ext_entries equal⟩

/-- The workflow with every reference resolved alone is the result if and only if each reference became what it becomes
alone. -/
theorem answers_eq_map_iff {table : CredentialsTable} {nodes : List INode} :
    Memo.answers (replaceNode table) {} nodes = nodes.map (resolveNode table) ↔
      ∀ index type nodeCredentials, WorkflowEntity.referenceAt ⟨some nodes⟩ index type = some nodeCredentials →
        (replaceInvalidCredentials table ⟨some nodes⟩).referenceAt index type =
          some (resolveAlone table type nodeCredentials) := by
  simp only [replaceInvalidCredentials, WorkflowEntity.referenceAt, Option.getD_some]
  constructor
  · intro equal index type nodeCredentials isAt
    obtain ⟨node, located, isReference⟩ := Option.bind_eq_some_iff.mp isAt
    rw [equal, List.getElem?_map, located, Option.map_some, Option.bind_some, resolveNode]
    split at isReference
    · cases isReference
    · rename_i enabled
      obtain ⟨credentials, has, isReference⟩ := Option.bind_eq_some_iff.mp isReference
      simp [enabled, has, OrderedMap.get?_mapEntries, isReference]
  · intro alone
    refine List.ext_getElem? fun index => ?_
    rw [Memo.getElem?_answers, List.getElem?_map]
    cases located : nodes[index]? with
    | none => rfl
    | some node =>
      have atNode := alone index
      rw [Memo.getElem?_answers, located] at atNode
      simp only [Option.map_some, Option.bind_some, Option.some.injEq] at atNode ⊢
      obtain ⟨_, same, unchanged⟩ | ⟨credentials, credentials', has, enabled, _, result, entries⟩ :=
        replaceNode_cases table (Memo.stateAfter (replaceNode table) {} (nodes.take index)) node
      · rw [same, unchanged]
      · rw [result] at atNode ⊢
        simp only [if_neg enabled, has, Option.bind_some] at atNode
        have sameKeys : credentials'.keys = credentials.keys := by
          rw [OrderedMap.keys, entries, keys_answers]
          rfl
        have resolved : credentials' = credentials.mapEntries (resolveAlone table) := by
          refine OrderedMap.ext_get? (by rw [sameKeys]; simp [OrderedMap.keys, OrderedMap.mapEntries]) ?_
          intro type member
          rw [sameKeys] at member
          obtain ⟨nodeCredentials, isEntry⟩ := OrderedMap.mem_keys.mp member
          have isReference := OrderedMap.get?_eq_some.mpr isEntry
          rw [atNode type nodeCredentials isReference, OrderedMap.get?_mapEntries, isReference]
          rfl
        rw [resolveNode, if_neg enabled, has, Option.map_some, resolved]

/-- The caches make no difference exactly when no reference is misled by one before it. -/
theorem cachesUnseen_iff (table : CredentialsTable) (workflow : WorkflowEntity) :
    CachesUnseen table workflow ↔
      workflow.references.Pairwise fun earlier later => ¬Misled table earlier later := by
  have each : (∀ index type nodeCredentials, workflow.referenceAt index type = some nodeCredentials →
      (replaceInvalidCredentials table workflow).referenceAt index type =
        some (resolveAlone table type nodeCredentials)) ↔
      workflow.references.Pairwise fun earlier later => ¬Misled table earlier later := by
    obtain ⟨_ | nodes⟩ := workflow
    · simp [WorkflowEntity.references, WorkflowEntity.referenceAt]
    · rw [← answers_eq_map_iff, Memo.answers_groups_iff (replaceNode_state table) (replaceNode_eq_iff table),
        answers_eq_iff]
      rfl
  rw [← each, CachesUnseen]
  constructor
  · exact And.left
  · intro alone
    refine ⟨alone, fun index index' type nodeCredentials isAt isAt' => ?_⟩
    rw [alone index type nodeCredentials isAt, alone index' type nodeCredentials isAt']

/-- Two nodes with a string reference to a name that no credential has: the first keeps the string, the second gets the
entry with a null id that the first left in the cache. -/
theorem not_cachesUnseen_unresolved :
    ¬CachesUnseen ⟨[], List.nodup_nil⟩
      ⟨some [⟨some ((∅ : OrderedMap _ _).set "httpBasicAuth" (.name "My login")), none⟩,
        ⟨some ((∅ : OrderedMap _ _).set "httpBasicAuth" (.name "My login")), none⟩]⟩ := by
  intro unseen
  have second := unseen.1 1 "httpBasicAuth" (.name "My login") (by decide)
  revert second
  decide

end WorkflowHelpers

end N8n.Workflows
