import N8n.Library.Distance
import N8n.Workflow.Workflow

/-! # The breadth-first search over connections

`searchNodesBFS` of `Workflow.ts`, which
`getParentNodesByDepth` runs over the connections by destination node.  The
objects of `visited` and `returnConns` are shared in the source; here
`returnConns` holds the names, and the objects are those of `visited`.
-/

namespace N8n

/-- The connections of a type that a node has in a table, over all its indexes. -/
def connectionsOf (connections : IConnections) (nodeName : String) (type : NodeConnectionType) : List IConnection :=
  (((connections.get? nodeName).bind (·.get? type)).getD []).flatMap (·.getD [])

theorem mem_keys_of_connectionsOf {connections : IConnections} {nodeName : String} {type : NodeConnectionType}
    {connection : IConnection} (member : connection ∈ connectionsOf connections nodeName type) :
    nodeName ∈ connections.keys := by
  cases found : connections.get? nodeName with
  | none => simp [connectionsOf, found] at member
  | some nodeConnections => exact OrderedMap.mem_keys_of_get? found

structure IConnectedNode where
  name : String
  indicies : List Nat
  depth : Nat
deriving DecidableEq, Repr

def dedupe {α : Type} [BEq α] (arr : List α) : List α := arr.eraseDups

structure SearchState where
  visited : OrderedMap String IConnectedNode := ∅
  returnConns : List String := []
  queue : List IConnectedNode

/-- One element of `toAdd`; the new elements of the queue get the depth that was counted up before. -/
def visitQueued (connections : IConnections) (sourceNode : String) (depth : Nat) (state : SearchState)
    (curr : IConnectedNode) : SearchState :=
  match state.visited.get? curr.name with
  | some node =>
    { state with
      visited := state.visited.set curr.name { node with indicies := dedupe (node.indicies ++ curr.indicies) } }
  | none => {
      visited := state.visited.set curr.name curr
      returnConns := if curr.name ≠ sourceNode then state.returnConns ++ [curr.name] else state.returnConns
      queue := state.queue ++ (connectionsOf connections curr.name .main).map fun connection =>
        { name := connection.node, indicies := [connection.index], depth } }

/-- The body of the loop: the queue becomes `toAdd` and is filled anew. -/
def searchLevel (connections : IConnections) (sourceNode : String) (depth : Nat) (state : SearchState) :
    SearchState :=
  state.queue.foldl (visitQueued connections sourceNode (depth + 1)) { state with queue := [] }

/-- The loop; nothing if the fuel does not last. -/
def searchLoop (connections : IConnections) (sourceNode : String) (maxDepth : Int) :
    Nat → Nat → SearchState → Option SearchState
  | 0, _, _ => none
  | fuel + 1, depth, state =>
    if state.queue = [] then some state
    else if maxDepth ≠ -1 ∧ (depth : Int) > maxDepth then some state
    else searchLoop connections sourceNode maxDepth fuel (depth + 1)
      (searchLevel connections sourceNode depth state)

def searchNodesBFS (connections : IConnections) (sourceNode : String) (maxDepth : Int) (fuel : Nat) :
    Option (List IConnectedNode) :=
  (searchLoop connections sourceNode maxDepth fuel 0
    { queue := [{ name := sourceNode, indicies := [], depth := 0 }] }).map fun state =>
      state.returnConns.filterMap state.visited.get?

def Workflow.getParentNodesByDepth (workflow : Workflow) (nodeName : String) (maxDepth : Int) (fuel : Nat) :
    Option (List IConnectedNode) :=
  searchNodesBFS workflow.connectionsByDestinationNode nodeName maxDepth fuel

/-! ## The connections as a graph -/

/-- A main connection of the first node names the second one. -/
def Connected (connections : IConnections) (nodeName next : String) : Prop :=
  ∃ connection ∈ connectionsOf connections nodeName .main, connection.node = next

/-- A main connection of the first node names the second one and the index. -/
def ConnectedAt (connections : IConnections) (nodeName next : String) (index : Nat) : Prop :=
  ∃ connection ∈ connectionsOf connections nodeName .main, connection.node = next ∧ connection.index = index

theorem ConnectedAt.connected {connections : IConnections} {nodeName next : String} {index : Nat}
    (connected : ConnectedAt connections nodeName next index) : Connected connections nodeName next := by
  obtain ⟨connection, member, leads, _⟩ := connected
  exact ⟨connection, member, leads⟩

section

variable (connections : IConnections) (sourceNode : String)

/-- The nodes that the search visits with one value of its depth. -/
abbrev AtDepth (depth : Nat) (nodeName : String) : Prop :=
  Distance.At (Connected connections) sourceNode depth nodeName

/-! ## One element of the queue -/

theorem nodup_dedupe {α : Type} [BEq α] [LawfulBEq α] : ∀ arr : List α, (dedupe arr).Nodup
  | [] => List.nodup_nil
  | first :: rest => by
    rw [dedupe, List.eraseDups_cons, List.nodup_cons]
    refine ⟨?_, nodup_dedupe (rest.filter fun item => !item == first)⟩
    rw [List.mem_eraseDups, List.mem_filter]
    simp
termination_by arr => arr.length
decreasing_by exact Nat.lt_succ_of_le (List.length_filter_le _ _)

@[simp] theorem mem_dedupe {α : Type} [BEq α] [LawfulBEq α] {arr : List α} {item : α} :
    item ∈ dedupe arr ↔ item ∈ arr := List.mem_eraseDups

variable {connections sourceNode}

variable {depth : Nat} {state : SearchState} {curr : IConnectedNode} {nodeName : String}

theorem mem_keys_visitQueued :
    nodeName ∈ (visitQueued connections sourceNode depth state curr).visited.keys ↔
      nodeName ∈ state.visited.keys ∨ curr.name = nodeName := by
  rw [visitQueued]
  split <;> simp only [OrderedMap.mem_keys_set, eq_comm, or_comm]

def SearchState.Records (state : SearchState) (nodeName : String) (index : Nat) : Prop :=
  ∃ node, state.visited.get? nodeName = some node ∧ index ∈ node.indicies

theorem records_visitQueued {index : Nat} :
    (visitQueued connections sourceNode depth state curr).Records nodeName index ↔
      state.Records nodeName index ∨ curr.name = nodeName ∧ index ∈ curr.indicies := by
  rw [visitQueued]
  by_cases same : nodeName = curr.name
  · subst same
    cases found : state.visited.get? curr.name with
    | some node => simp [SearchState.Records, found]
    | none => simp [SearchState.Records, found]
  · have different : ¬ curr.name = nodeName := fun same' => same same'.symm
    cases found : state.visited.get? curr.name with
    | some node => simp [SearchState.Records, OrderedMap.get?_set_of_ne _ _ same, different]
    | none => simp [SearchState.Records, OrderedMap.get?_set_of_ne _ _ same, different]

/-- What holds of the objects and of the list of results all the time. -/
structure Kept (sourceNode : String) (state : SearchState) : Prop where
  name : ∀ nodeName node, state.visited.get? nodeName = some node → node.name = nodeName
  nodup : ∀ nodeName node, state.visited.get? nodeName = some node → node.indicies.Nodup
  returned : state.returnConns.Nodup
  mem_returned : ∀ nodeName, nodeName ∈ state.returnConns ↔ nodeName ∈ state.visited.keys ∧ nodeName ≠ sourceNode

theorem get?_visitQueued {curr value : IConnectedNode}
    (isAt : (visitQueued connections sourceNode depth state curr).visited.get? nodeName = some value) :
    state.visited.get? nodeName = some value ∨
      nodeName = curr.name ∧
        ((∃ node, state.visited.get? nodeName = some node ∧
            value = { node with indicies := dedupe (node.indicies ++ curr.indicies) }) ∨
          nodeName ∉ state.visited.keys ∧ value = curr) := by
  rw [visitQueued] at isAt
  cases found : state.visited.get? curr.name with
  | some node =>
    simp only [found, OrderedMap.get?_set] at isAt
    split at isAt
    · rename_i same
      exact .inr ⟨same, .inl ⟨node, same ▸ found, (Option.some.inj isAt).symm⟩⟩
    · exact .inl isAt
  | none =>
    simp only [found, OrderedMap.get?_set] at isAt
    split at isAt
    · rename_i same
      exact .inr ⟨same, .inr ⟨OrderedMap.get?_eq_none.mp (same ▸ found), (Option.some.inj isAt).symm⟩⟩
    · exact .inl isAt

theorem returnConns_visitQueued :
    (visitQueued connections sourceNode depth state curr).returnConns =
      if curr.name ∈ state.visited.keys ∨ curr.name = sourceNode then state.returnConns
      else state.returnConns ++ [curr.name] := by
  rw [visitQueued]
  cases found : state.visited.get? curr.name with
  | some node =>
    have isKey : curr.name ∈ state.visited.keys := OrderedMap.mem_keys_of_get? found
    simp only [isKey, true_or, if_true]
  | none =>
    have notKey : curr.name ∉ state.visited.keys := OrderedMap.get?_eq_none.mp found
    simp only [notKey, false_or, ite_not]

theorem Kept.visitQueued (kept : Kept sourceNode state) (distinct : curr.indicies.Nodup) :
    Kept sourceNode (visitQueued connections sourceNode depth state curr) where
  name := by
    intro nodeName value isAt
    cases get?_visitQueued isAt with
    | inl old => exact kept.name _ _ old
    | inr visit =>
      obtain ⟨rfl, ⟨node, found, rfl⟩ | ⟨_, rfl⟩⟩ := visit
      · exact kept.name _ node found
      · rfl
  nodup := by
    intro nodeName value isAt
    cases get?_visitQueued isAt with
    | inl old => exact kept.nodup _ _ old
    | inr visit =>
      obtain ⟨rfl, ⟨node, found, rfl⟩ | ⟨_, rfl⟩⟩ := visit
      · exact nodup_dedupe _
      · exact distinct
  returned := by
    rw [returnConns_visitQueued]
    split
    · exact kept.returned
    · rename_i isNew
      have fresh : curr.name ∉ state.returnConns := fun member => isNew (.inl ((kept.mem_returned _).mp member).1)
      rw [← List.concat_eq_append]
      exact kept.returned.concat fresh
  mem_returned := by
    intro nodeName
    rw [returnConns_visitQueued, mem_keys_visitQueued]
    split
    · -- the name was visited before, or it is that of the source
      rename_i isOld
      rw [kept.mem_returned]
      constructor
      · exact fun old => ⟨.inl old.1, old.2⟩
      · intro both
        obtain ⟨old | rfl, notSource⟩ := both
        · exact ⟨old, notSource⟩
        · exact ⟨isOld.resolve_right notSource, notSource⟩
    · rename_i isNew
      rw [List.mem_append, List.mem_singleton, kept.mem_returned]
      constructor
      · intro either
        obtain old | rfl := either
        · exact ⟨.inl old.1, old.2⟩
        · exact ⟨.inr rfl, fun isSource => isNew (.inr isSource)⟩
      · intro both
        obtain ⟨old | rfl, notSource⟩ := both
        · exact .inl ⟨old, notSource⟩
        · exact .inr rfl

/-- The queue holds the connections of the nodes that were not visited before this level, and nothing else. -/
def Queues (connections : IConnections) (before : List String) (depth : Nat) (state : SearchState) : Prop :=
  ∀ item, item ∈ state.queue ↔ ∃ nodeName ∈ state.visited.keys, nodeName ∉ before ∧
    ∃ connection ∈ connectionsOf connections nodeName .main,
      item = { name := connection.node, indicies := [connection.index], depth }

theorem Queues.visitQueued {before : List String} (kept : ∀ nodeName ∈ before, nodeName ∈ state.visited.keys)
    (queues : Queues connections before depth state) :
    Queues connections before depth (visitQueued connections sourceNode depth state curr) := by
  intro item
  rw [N8n.visitQueued]
  cases found : state.visited.get? curr.name with
  | some node =>
    have isKey : curr.name ∈ state.visited.keys := OrderedMap.mem_keys_of_get? found
    dsimp only
    rw [OrderedMap.keys_set, if_pos isKey]
    exact queues item
  | none =>
    have notBefore : curr.name ∉ before := fun inside =>
      OrderedMap.get?_eq_none.mp found (kept _ inside)
    simp only [List.mem_append, List.mem_map, queues item, OrderedMap.mem_keys_set]
    constructor
    · rintro (⟨nodeName, isKey, further⟩ | ⟨connection, member, isItem⟩)
      · exact ⟨nodeName, .inr isKey, further⟩
      · exact ⟨curr.name, .inl rfl, notBefore, connection, member, isItem.symm⟩
    · rintro ⟨nodeName, rfl | isKey, fresh, connection, member, isItem⟩
      · exact .inr ⟨connection, member, isItem.symm⟩
      · exact .inl ⟨nodeName, isKey, fresh, connection, member, isItem⟩

def KeepsDepth (before : OrderedMap String IConnectedNode) (depth : Nat) (state : SearchState) : Prop :=
  ∀ nodeName node, state.visited.get? nodeName = some node →
    (∃ old, before.get? nodeName = some old ∧ old.depth = node.depth) ∨
      nodeName ∉ before.keys ∧ node.depth = depth

theorem KeepsDepth.visitQueued {before : OrderedMap String IConnectedNode} {depth next : Nat}
    (isDepth : curr.depth = depth) (grown : ∀ nodeName ∈ before.keys, nodeName ∈ state.visited.keys)
    (keeps : KeepsDepth before depth state) :
    KeepsDepth before depth (visitQueued connections sourceNode next state curr) := by
  intro nodeName value isAt
  cases get?_visitQueued isAt with
  | inl old => exact keeps _ _ old
  | inr visit =>
    obtain ⟨rfl, ⟨node, found, rfl⟩ | ⟨notKey, rfl⟩⟩ := visit
    · exact keeps _ node found
    · exact .inr ⟨fun inside => notKey (grown _ inside), isDepth⟩

/-! ## One level -/

theorem mem_keys_searchLevel :
    nodeName ∈ (searchLevel connections sourceNode depth state).visited.keys ↔
      nodeName ∈ state.visited.keys ∨ ∃ item ∈ state.queue, item.name = nodeName :=
  Loop.foldl_iff_exists (fun state : SearchState => nodeName ∈ state.visited.keys)
    (fun item : IConnectedNode => item.name = nodeName) (fun _ _ => mem_keys_visitQueued) _ _

theorem records_searchLevel {index : Nat} :
    (searchLevel connections sourceNode depth state).Records nodeName index ↔
      state.Records nodeName index ∨ ∃ item ∈ state.queue, item.name = nodeName ∧ index ∈ item.indicies :=
  Loop.foldl_iff_exists (fun state : SearchState => state.Records nodeName index)
    (fun item : IConnectedNode => item.name = nodeName ∧ index ∈ item.indicies)
    (fun _ _ => records_visitQueued) _ _

theorem searchLevel_keeps (connections : IConnections) (kept : Kept sourceNode state)
    (items : ∀ item ∈ state.queue, item.depth = depth ∧ item.indicies.Nodup) :
    Kept sourceNode (searchLevel connections sourceNode depth state) ∧
      Queues connections state.visited.keys (depth + 1) (searchLevel connections sourceNode depth state) ∧
        KeepsDepth state.visited depth (searchLevel connections sourceNode depth state) := by
  let invariant (next : SearchState) : Prop :=
    (∀ nodeName ∈ state.visited.keys, nodeName ∈ next.visited.keys) ∧ Kept sourceNode next ∧
      Queues connections state.visited.keys (depth + 1) next ∧ KeepsDepth state.visited depth next
  have start : invariant { state with queue := [] } := by
    refine ⟨fun _ inside => inside, ⟨kept.name, kept.nodup, kept.returned, kept.mem_returned⟩, ?_, ?_⟩
    · intro item
      constructor
      · intro inside
        cases inside
      · rintro ⟨nodeName, isKey, fresh, _⟩
        exact absurd isKey fresh
    · exact fun _ node at_ => .inl ⟨node, at_, rfl⟩
  have turn : ∀ curr ∈ state.queue, ∀ next, invariant next →
      invariant (visitQueued connections sourceNode (depth + 1) next curr) := by
    rintro curr inside next ⟨grown, nextKept, queues, keepsDepth⟩
    obtain ⟨isDepth, distinct⟩ := items curr inside
    exact ⟨fun nodeName isKey => mem_keys_visitQueued.mpr (.inl (grown _ isKey)),
      nextKept.visitQueued distinct, queues.visitQueued grown, keepsDepth.visitQueued isDepth grown⟩
  exact (Loop.foldl_preserves invariant turn start).2

/-- The state before the level of a depth: the nodes at smaller depths are visited, with the indexes of the
connections of all nodes whose connections have been taken from the queue, and the connections that lead on
stand in the queue. -/
structure BeforeLevel (connections : IConnections) (sourceNode : String) (depth : Nat) (state : SearchState) :
    Prop where
  kept : Kept sourceNode state
  visited : ∀ nodeName, nodeName ∈ state.visited.keys ↔ ∃ nearer < depth, AtDepth connections sourceNode nearer nodeName
  depths : ∀ nodeName node, state.visited.get? nodeName = some node →
    AtDepth connections sourceNode node.depth nodeName
  records : ∀ nodeName index, state.Records nodeName index ↔ ∃ previous nearer, nearer + 1 < depth ∧
    AtDepth connections sourceNode nearer previous ∧ ConnectedAt connections previous nodeName index
  items : ∀ item ∈ state.queue, item.depth = depth ∧ item.indicies.Nodup
  queued : ∀ nodeName, (∃ item ∈ state.queue, item.name = nodeName) ↔ depth = 0 ∧ nodeName = sourceNode ∨
    ∃ previous nearer, nearer + 1 = depth ∧ AtDepth connections sourceNode nearer previous ∧
      Connected connections previous nodeName
  leads : ∀ nodeName index, (∃ item ∈ state.queue, item.name = nodeName ∧ index ∈ item.indicies) ↔
    ∃ previous nearer, nearer + 1 = depth ∧ AtDepth connections sourceNode nearer previous ∧
      ConnectedAt connections previous nodeName index

/-- The queue brings the nodes of this depth, next to nodes that are nearer. -/
theorem BeforeLevel.queued_iff_atDepth (before : BeforeLevel connections sourceNode depth state)
    (notNearer : ∀ nearer < depth, ¬ AtDepth connections sourceNode nearer nodeName) :
    (∃ item ∈ state.queue, item.name = nodeName) ↔ AtDepth connections sourceNode depth nodeName := by
  rw [before.queued]
  cases depth with
  | zero => simp [AtDepth, Distance.at_zero_iff]
  | succ depth =>
    rw [AtDepth, Distance.at_succ_iff]
    constructor
    · rintro (⟨impossible, _⟩ | ⟨previous, nearer, isDepth, atNearer, connected⟩)
      · cases impossible
      · obtain rfl : nearer = depth := by omega
        exact ⟨⟨previous, atNearer, connected⟩, fun closer isCloser => notNearer closer (by omega)⟩
    · rintro ⟨⟨previous, atDepth, connected⟩, _⟩
      exact .inr ⟨previous, depth, rfl, atDepth, connected⟩

theorem BeforeLevel.visited_searchLevel (before : BeforeLevel connections sourceNode depth state) (nodeName : String) :
    nodeName ∈ (N8n.searchLevel connections sourceNode depth state).visited.keys ↔
      ∃ nearer < depth + 1, AtDepth connections sourceNode nearer nodeName := by
  rw [mem_keys_searchLevel, before.visited]
  by_cases old : ∃ nearer < depth, AtDepth connections sourceNode nearer nodeName
  · obtain ⟨nearer, isNearer, atNearer⟩ := old
    exact iff_of_true (.inl ⟨nearer, isNearer, atNearer⟩) ⟨nearer, by omega, atNearer⟩
  · rw [before.queued_iff_atDepth fun nearer isNearer atNearer => old ⟨nearer, isNearer, atNearer⟩]
    constructor
    · rintro (impossible | atDepth)
      · exact absurd impossible old
      · exact ⟨depth, by omega, atDepth⟩
    · rintro ⟨nearer, isNearer, atNearer⟩
      by_cases isDepth : nearer = depth
      · exact .inr (isDepth ▸ atNearer)
      · exact absurd ⟨nearer, by omega, atNearer⟩ old

/-- The nodes that a level visits first are those of its depth. -/
theorem BeforeLevel.fresh_searchLevel (before : BeforeLevel connections sourceNode depth state) (nodeName : String) :
    nodeName ∈ (N8n.searchLevel connections sourceNode depth state).visited.keys ∧
      nodeName ∉ state.visited.keys ↔ AtDepth connections sourceNode depth nodeName := by
  rw [before.visited_searchLevel, before.visited]
  constructor
  · rintro ⟨⟨nearer, isNearer, atNearer⟩, notOld⟩
    by_cases isDepth : nearer = depth
    · exact isDepth ▸ atNearer
    · exact absurd ⟨nearer, by omega, atNearer⟩ notOld
  · intro atDepth
    refine ⟨⟨depth, by omega, atDepth⟩, ?_⟩
    rintro ⟨nearer, isNearer, atNearer⟩
    have := atNearer.unique atDepth
    omega

theorem BeforeLevel.searchLevel (before : BeforeLevel connections sourceNode depth state) :
    BeforeLevel connections sourceNode (depth + 1) (searchLevel connections sourceNode depth state) := by
  obtain ⟨kept, queues, keepsDepth⟩ := searchLevel_keeps connections before.kept before.items
  have fresh := before.fresh_searchLevel
  refine ⟨kept, before.visited_searchLevel, ?depths, ?records, ?items, ?queued, ?leads⟩
  case depths =>
    intro nodeName node at_
    rcases keepsDepth nodeName node at_ with ⟨old, wasAt, sameDepth⟩ | ⟨notOld, isDepth⟩
    · rw [← sameDepth]
      exact before.depths nodeName old wasAt
    · rw [isDepth]
      exact (fresh nodeName).mp ⟨OrderedMap.mem_keys_of_get? at_, notOld⟩
  case records =>
    intro nodeName index
    rw [records_searchLevel, before.records, before.leads]
    constructor
    · rintro (⟨previous, nearer, isNearer, further⟩ | ⟨previous, nearer, isNearer, further⟩)
      · exact ⟨previous, nearer, by omega, further⟩
      · exact ⟨previous, nearer, by omega, further⟩
    · rintro ⟨previous, nearer, isNearer, further⟩
      by_cases isLast : nearer + 1 = depth
      · exact .inr ⟨previous, nearer, isLast, further⟩
      · exact .inl ⟨previous, nearer, by omega, further⟩
  case items =>
    intro item inside
    obtain ⟨_, _, _, connection, _, rfl⟩ := (queues item).mp inside
    exact ⟨rfl, List.nodup_singleton _⟩
  case queued =>
    intro nodeName
    constructor
    · rintro ⟨item, inside, rfl⟩
      obtain ⟨previous, isKey, notOld, connection, member, rfl⟩ := (queues item).mp inside
      exact .inr ⟨previous, depth, rfl, (fresh previous).mp ⟨isKey, notOld⟩, connection, member, rfl⟩
    · rintro (⟨impossible, _⟩ | ⟨previous, nearer, isDepth, atNearer, connection, member, rfl⟩)
      · cases impossible
      · obtain rfl : nearer = depth := by omega
        obtain ⟨isKey, notOld⟩ := (fresh previous).mpr atNearer
        exact ⟨_, (queues _).mpr ⟨previous, isKey, notOld, connection, member, rfl⟩, rfl⟩
  case leads =>
    intro nodeName index
    constructor
    · rintro ⟨item, inside, rfl, isIndex⟩
      obtain ⟨previous, isKey, notOld, connection, member, rfl⟩ := (queues item).mp inside
      obtain rfl := List.mem_singleton.mp isIndex
      exact ⟨previous, depth, rfl, (fresh previous).mp ⟨isKey, notOld⟩, connection, member, rfl, rfl⟩
    · rintro ⟨previous, nearer, isDepth, atNearer, connection, member, rfl, rfl⟩
      obtain rfl : nearer = depth := by omega
      obtain ⟨isKey, notOld⟩ := (fresh previous).mpr atNearer
      exact ⟨_, (queues _).mpr ⟨previous, isKey, notOld, connection, member, rfl⟩, rfl, List.mem_singleton_self _⟩

/-! ## The loop -/

theorem Kept.names (kept : Kept sourceNode state) :
    (state.returnConns.filterMap state.visited.get?).map (·.name) = state.returnConns := by
  have each : ∀ nodeName ∈ state.returnConns,
      (state.visited.get? nodeName).map (·.name) = some nodeName := by
    intro nodeName inside
    have isKey := OrderedMap.has_iff.mpr ((kept.mem_returned nodeName).mp inside).1
    obtain ⟨node, found⟩ := Option.isSome_iff_exists.mp isKey
    rw [found, Option.map_some, kept.name nodeName node found]
  rw [List.map_filterMap, List.filterMap_congr each, List.filterMap_some]

end

/-! Two nodes that are connected to each other, one of them twice. -/

namespace TwoNodeLoop

def connections : IConnections :=
  (∅ : IConnections)
    |>.set "first" ((∅ : INodeConnections).set .main
      [.full [{ node := "second", type := .main, index := 0 }, { node := "second", type := .main, index := 2 }]])
    |>.set "second" ((∅ : INodeConnections).set .main [.full [{ node := "first", type := .main, index := 1 }]])

end TwoNodeLoop

end N8n
