import N8n.Core.IncomingData
import N8n.Library.PathSearch

/-! # The start nodes of a partial execution

`packages/core/src/execution-engine/partial-execution-utils/find-start-nodes.ts`:
a search from the trigger for the first nodes on every branch that have to run.
-/

namespace N8n.Core

open Relation

variable {Item : Type}

def isDirty (node : INode) (runData : IRunData Item) (pinData : IPinData Item) : Bool :=
  if pinData.has node.name then false
  else if runData.has node.name then false
  else true

/-- `startNodes.add(node)` on a set in insertion order. -/
def addStart (startNodes : List INode) (node : INode) : List INode :=
  if node ∈ startNodes then startNodes else startNodes ++ [node]

def loopNodeType : String := "n8n-nodes-base.splitInBatches"

/-- A loop node whose `done` output has no data on the last run. -/
def loopIsNotDone (runData : IRunData Item) (current : INode) : Except Thrown Bool :=
  if current.type = loopNodeType then
    match getIncomingData (runsOf runData current.name).getLast? .main 0 with
    | .error thrown => .error thrown
    | .ok none => .ok true
    | .ok (some nodeRunData) => .ok (nodeRunData.length = 0)
  else .ok false

def followConnection (runData : IRunData Item) (recurse : INode → List INode → Except Thrown (List INode))
    (startNodes : List INode) (outGoingConnection : GraphConnection) : Except Thrown (List INode) :=
  match getIncomingDataFromAnyRun runData outGoingConnection.from.name outGoingConnection.type
    outGoingConnection.outputIndex with
  | .error thrown => .error thrown
  | .ok none => .ok startNodes
  | .ok (some nodeRunData) =>
    if nodeRunData.data.length = 0 then .ok startNodes else recurse outGoingConnection.to startNodes

namespace DirectedGraph

/-- `fuel` is the call stack; see `findStartNodes_ne_rangeError`. -/
def findStartNodesRecursive (graph : DirectedGraph) (destination : INode) (runData : IRunData Item)
    (pinData : IPinData Item) : Nat → INode → List INode → List INode → Except Thrown (List INode)
  | 0, _, _, _ => .error .rangeError
  | fuel + 1, current, startNodes, seen =>
    -- If the current node is dirty stop following this branch, we found a start node.
    if isDirty current runData pinData then .ok (addStart startNodes current)
    -- The same for the destination node.
    else if current = destination then .ok (addStart startNodes current)
    else
      match loopIsNotDone runData current with
      | .error thrown => .error thrown
      | .ok true => .ok (addStart startNodes current)
      | .ok false =>
        -- If we detect a cycle stop following the branch.
        if current ∈ seen then .ok startNodes
        else
          match graph.getDirectChildConnections current with
          | .error thrown => .error thrown
          | .ok outGoingConnections =>
            outGoingConnections.foldlM (followConnection runData fun child startNodes =>
              findStartNodesRecursive graph destination runData pinData fuel child startNodes
                (seen ++ [current])) startNodes

def findStartNodes (graph : DirectedGraph) (trigger destination : INode) (runData : IRunData Item)
    (pinData : IPinData Item) : Except Thrown (List INode) :=
  graph.findStartNodesRecursive destination runData pinData (graph.nodes.size + 1) trigger [] []

/-! ## The walks -/

/-- The last run of a loop node has no items on output 0. -/
def LoopOpen (runData : IRunData Item) (node : INode) : Prop :=
  node.type = loopNodeType ∧ ∀ run ∈ (runsOf runData node.name).getLast?, itemsOn .main 0 run = []

def Stopping (destination : INode) (runData : IRunData Item) (pinData : IPinData Item) (node : INode) : Prop :=
  isDirty node runData pinData = true ∨ node = destination ∨ LoopOpen runData node

/-- Some run of its source left items on the output of the connection. -/
def Produced (runData : IRunData Item) (connection : GraphConnection) : Prop :=
  ∃ run ∈ runsOf runData connection.from.name, itemsOn connection.type connection.outputIndex run ≠ []

/-- A connection with items leads from `u` to `v`. -/
def Passes (graph : DirectedGraph) (runData : IRunData Item) (u v : INode) : Prop :=
  ∃ connection ∈ graph.connections.values,
    connection.from = u ∧ connection.to = v ∧ Produced runData connection

/-- A walk whose earlier nodes are not stopping leads from the trigger to `node`. -/
def Walked (graph : DirectedGraph) (trigger destination : INode) (runData : IRunData Item)
    (pinData : IPinData Item) (node : INode) : Prop :=
  ReflTransGen (PathSearch.Step (Stopping destination runData pinData) (graph.Passes runData)) trigger node

/-- Every run of the node that is looked at has the list of outputs that is read. -/
structure RunsReadable (graph : DirectedGraph) (destination : INode) (runData : IRunData Item)
    (pinData : IPinData Item) (node : INode) : Prop where
  lastRun : isDirty node runData pinData = false → node ≠ destination → node.type = loopNodeType →
    ∀ run ∈ (runsOf runData node.name).getLast?, hasOutputs .main run = true
  outputs : ¬ Stopping destination runData pinData node →
    ∀ connection ∈ graph.connections.values, connection.from = node →
      scannable connection.type connection.outputIndex (runsOf runData node.name) = true

/-! ## One call -/

section

variable {graph : DirectedGraph} {destination trigger : INode} {runData : IRunData Item} {pinData : IPinData Item}

theorem mem_addStart {startNodes : List INode} {node other : INode} :
    other ∈ addStart startNodes node ↔ other ∈ startNodes ∨ other = node := by
  rw [addStart]
  split
  · rename_i isStart
    exact ⟨.inl, fun either => either.elim id fun isNode => isNode ▸ isStart⟩
  · simp

variable {node : INode}

theorem loopIsNotDone_returns
    (reads : node.type = loopNodeType → ∀ run ∈ (runsOf runData node.name).getLast?, hasOutputs .main run = true) :
    loopIsNotDone runData node = .ok true ∧ LoopOpen runData node ∨
      loopIsNotDone runData node = .ok false ∧ ¬ LoopOpen runData node := by
  rw [loopIsNotDone]
  by_cases isLoop : node.type = loopNodeType
  · rw [if_pos isLoop]
    cases isLast : (runsOf runData node.name).getLast? with
    | none => exact .inl ⟨rfl, isLoop, by simp [isLast]⟩
    | some run =>
      obtain ⟨found, returns, items⟩ := getIncomingData_returns 0 (reads isLoop run isLast)
      have openIff : LoopOpen runData node ↔ found.getD [] = [] := by
        simp [LoopOpen, isLoop, isLast, items]
      rw [returns, openIff]
      cases found with
      | none => exact .inl ⟨rfl, rfl⟩
      | some list => cases list <;> simp
  · exact .inr ⟨if_neg isLoop, fun loopOpen => isLoop loopOpen.1⟩

theorem loopIsNotDone_ne_rangeError : loopIsNotDone runData node ≠ .error .rangeError := by
  intro fails
  rw [loopIsNotDone] at fails
  split at fails
  · split at fails
    · rename_i thrown read
      exact getIncomingData_ne_rangeError (Except.error.inj fails ▸ read)
    · cases fails
    · cases fails
  · cases fails

theorem lastRun_of_returns {isOpen : Bool} (returns : loopIsNotDone runData node = .ok isOpen)
    (isLoop : node.type = loopNodeType) :
    ∀ run ∈ (runsOf runData node.name).getLast?, hasOutputs .main run = true := by
  intro run isLast
  by_contra lacks
  rw [loopIsNotDone, if_pos isLoop, Option.mem_def.mp isLast,
    getIncomingData_throws (Bool.eq_false_iff.mpr lacks)] at returns
  cases returns

variable {recurse : INode → List INode → Except Thrown (List INode)} {startNodes next seen : List INode}

variable {connection : GraphConnection}

theorem followConnection_of_produced (produced : Produced runData connection)
    (reads : scannable connection.type connection.outputIndex (runsOf runData connection.from.name) = true) :
    followConnection runData recurse startNodes connection = recurse connection.to startNodes := by
  obtain ⟨found, isFound⟩ := Option.isSome_iff_exists.mp ((firstItems_isSome_iff 0).mpr produced)
  have nonempty := (firstItems_spec isFound).1
  rw [followConnection, getIncomingDataFromAnyRun_returns reads, isFound]
  exact if_neg (mt List.length_eq_zero_iff.mp nonempty)

theorem followConnection_of_not_produced (notProduced : ¬ Produced runData connection)
    (reads : scannable connection.type connection.outputIndex (runsOf runData connection.from.name) = true) :
    followConnection runData recurse startNodes connection = .ok startNodes := by
  have nothing := mt (firstItems_isSome_iff 0).mp notProduced
  rw [followConnection, getIncomingDataFromAnyRun_returns reads, Option.not_isSome_iff_eq_none.mp nothing]

theorem scannable_of_followed (returns : followConnection runData recurse startNodes connection = .ok next) :
    scannable connection.type connection.outputIndex (runsOf runData connection.from.name) = true := by
  cases found : getIncomingDataFromAnyRun runData connection.from.name connection.type connection.outputIndex with
  | error thrown =>
    rw [followConnection, found] at returns
    cases returns
  | ok incoming => exact (getIncomingDataFromAnyRun_inv found).1

theorem followConnection_ne_rangeError (recurses : recurse connection.to startNodes ≠ .error .rangeError) :
    followConnection runData recurse startNodes connection ≠ .error .rangeError := by
  intro fails
  rw [followConnection] at fails
  split at fails
  · rename_i thrown read
    exact getIncomingDataFromAnyRun_ne_rangeError (Except.error.inj fails ▸ read)
  · cases fails
  · split at fails
    · cases fails
    · exact recurses fails

section Call

variable {current : INode} {fuel : Nat}

theorem findStartNodesRecursive_of_stopping (reads : graph.RunsReadable destination runData pinData current)
    (stopping : Stopping destination runData pinData current) :
    graph.findStartNodesRecursive destination runData pinData (fuel + 1) current startNodes seen =
      .ok (addStart startNodes current) := by
  rw [findStartNodesRecursive]
  split
  · rfl
  split
  · rfl
  rename_i notDirty notDestination
  have loopOpen : LoopOpen runData current := (stopping.resolve_left notDirty).resolve_left notDestination
  cases loopIsNotDone_returns (reads.lastRun (Bool.eq_false_iff.mpr notDirty) notDestination) with
  | inl isOpen => rw [isOpen.1]
  | inr isDone => exact absurd loopOpen isDone.2

/-- A node that does not stop the search is left in one of two ways. -/
theorem findStartNodesRecursive_of_goesOn (reads : graph.RunsReadable destination runData pinData current)
    (goesOn : ¬ Stopping destination runData pinData current) (contains : graph.Contains current) :
    graph.findStartNodesRecursive destination runData pinData (fuel + 1) current startNodes seen =
      if current ∈ seen then .ok startNodes
      else (graph.connections.values.filter fun connection => connection.from = current).foldlM
        (followConnection runData fun child startNodes =>
          graph.findStartNodesRecursive destination runData pinData fuel child startNodes (seen ++ [current]))
        startNodes := by
  simp only [Stopping, not_or] at goesOn
  obtain ⟨notDirty, notDestination, notOpen⟩ := goesOn
  rw [findStartNodesRecursive, if_neg notDirty, if_neg notDestination]
  cases loopIsNotDone_returns (reads.lastRun (Bool.eq_false_iff.mpr notDirty) notDestination) with
  | inl isOpen => exact absurd isOpen.2 notOpen
  | inr isDone =>
    rw [isDone.1, contains.childConnections]

theorem lastRun_of_call_returns
    (returns : graph.findStartNodesRecursive destination runData pinData fuel current startNodes seen = .ok next) :
    isDirty current runData pinData = false → current ≠ destination → current.type = loopNodeType →
      ∀ run ∈ (runsOf runData current.name).getLast?, hasOutputs .main run = true := by
  intro notDirty notDestination isLoop
  cases fuel with
  | zero => cases returns
  | succ fuel =>
    rw [findStartNodesRecursive, if_neg (by simp [notDirty]), if_neg notDestination] at returns
    cases isOpen : loopIsNotDone runData current with
    | error thrown =>
      rw [isOpen] at returns
      cases returns
    | ok value => exact lastRun_of_returns isOpen isLoop

theorem loop_of_call_returns
    (returns : graph.findStartNodesRecursive destination runData pinData fuel current startNodes seen = .ok next)
    (goesOn : ¬ Stopping destination runData pinData current) (unseen : current ∉ seen) :
    graph.Contains current ∧ ∃ fewer,
      (graph.connections.values.filter fun connection => connection.from = current).foldlM
        (followConnection runData fun child startNodes =>
          graph.findStartNodesRecursive destination runData pinData fewer child startNodes (seen ++ [current]))
        startNodes = .ok next := by
  have lastRun := lastRun_of_call_returns returns
  simp only [Stopping, not_or] at goesOn
  obtain ⟨notDirty, notDestination, notOpen⟩ := goesOn
  cases fuel with
  | zero => cases returns
  | succ fuel =>
    rw [findStartNodesRecursive, if_neg notDirty, if_neg notDestination] at returns
    cases loopIsNotDone_returns (lastRun (Bool.eq_false_iff.mpr notDirty) notDestination) with
    | inl isOpen => exact absurd isOpen.2 notOpen
    | inr isDone =>
      simp only [isDone.1, if_neg unseen, getDirectChildConnections] at returns
      split at returns
      · rename_i thrown
        cases returns
      · rename_i connections found
        split at found
        · rename_i contains
          cases found
          exact ⟨contains, fuel, returns⟩
        · cases found

end Call

/-! ## The search -/

/-- The call at `current` comes to a call at `node`. -/
def ComesTo (graph : DirectedGraph) (destination : INode) (runData : IRunData Item) (pinData : IPinData Item) :
    INode → List INode → INode → List INode → Prop :=
  PathSearch.Calls (Stopping destination runData pinData) (graph.Passes runData)

theorem findStartNodesRecursive_returns (wellFormed : graph.WellFormed) (fuel : Nat) :
    ∀ current startNodes seen, Stopping destination runData pinData current ∨ graph.Contains current →
      (Traversal.unmarked graph.nodes.values seen).length < fuel →
      (∀ node seen', graph.ComesTo destination runData pinData current seen node seen' →
        graph.RunsReadable destination runData pinData node) →
      ∃ next, graph.findStartNodesRecursive destination runData pinData fuel current startNodes seen = .ok next ∧
        ∀ node, node ∈ next ↔ node ∈ startNodes ∨ Stopping destination runData pinData node ∧
          ∃ seen', graph.ComesTo destination runData pinData current seen node seen' := by
  induction fuel with
  | zero => intro _ _ _ _ enough; omega
  | succ fuel ih =>
    intro current startNodes seen known enough reads
    have readsCurrent := reads current seen .here
    by_cases stopping : Stopping destination runData pinData current
    · refine ⟨_, findStartNodesRecursive_of_stopping readsCurrent stopping, fun node => ?_⟩
      rw [mem_addStart]
      apply or_congr_right
      constructor
      · intro isCurrent
        cases isCurrent
        exact ⟨stopping, seen, .here⟩
      · intro comes
        obtain ⟨_, _, calls⟩ := comes
        cases calls with
        | here => rfl
        | child goesOn => exact absurd stopping goesOn
    have contains := known.resolve_left stopping
    rw [findStartNodesRecursive_of_goesOn readsCurrent stopping contains]
    split
    · rename_i isSeen
      refine ⟨startNodes, rfl, fun node => (or_iff_left fun comes => ?_).symm⟩
      obtain ⟨stops, _, calls⟩ := comes
      cases calls with
      | here => exact stopping stops
      | child _ unseen => exact unseen isSeen
    · rename_i unseen
      have inGraph : current ∈ graph.nodes.values := wellFormed.contains_iff.mp contains
      have fewer := Traversal.length_unmarked_lt inGraph unseen
      -- what one outgoing connection adds
      have turn : ∀ connection ∈ graph.connections.values.filter (fun connection => connection.from = current),
          ∀ state : List INode, True → ∃ next, followConnection runData (fun child startNodes =>
              graph.findStartNodesRecursive destination runData pinData fuel child startNodes (seen ++ [current]))
              state connection = .ok next ∧ True ∧ ∀ node, node ∈ next ↔ node ∈ state ∨
                Produced runData connection ∧ Stopping destination runData pinData node ∧
                  ∃ seen', graph.ComesTo destination runData pinData connection.to (seen ++ [current]) node seen' := by
        intro connection inside state _
        obtain ⟨member, leaves⟩ := List.mem_filter.mp inside
        have leaves : connection.from = current := of_decide_eq_true leaves
        have scans := readsCurrent.outputs stopping connection member leaves
        rw [← leaves] at scans
        by_cases produced : Produced runData connection
        · obtain ⟨next, returns, added⟩ := ih connection.to state (seen ++ [current])
            (.inr (wellFormed.toNode connection member)) (by omega)
            fun node seen' calls => reads node seen'
              (.child stopping unseen ⟨connection, member, leaves, rfl, produced⟩ calls)
          refine ⟨next, (followConnection_of_produced produced scans).trans returns, trivial, fun node => ?_⟩
          rw [added, and_iff_right produced]
        · exact ⟨state, followConnection_of_not_produced produced scans, trivial, fun node => by simp [produced]⟩
      obtain ⟨next, returns, _, added⟩ := Loop.foldlM_collects (fun _ => True) (fun state node => node ∈ state)
        (fun connection node => Produced runData connection ∧ Stopping destination runData pinData node ∧
          ∃ seen', graph.ComesTo destination runData pinData connection.to (seen ++ [current]) node seen')
        turn trivial
      refine ⟨next, returns, fun node => (added node).trans (or_congr_right ?_)⟩
      constructor
      · intro adds
        obtain ⟨connection, inside, produced, stops, seen', calls⟩ := adds
        obtain ⟨member, leaves⟩ := List.mem_filter.mp inside
        exact ⟨stops, seen',
          .child stopping unseen ⟨connection, member, of_decide_eq_true leaves, rfl, produced⟩ calls⟩
      · intro comes
        obtain ⟨stops, seen', calls⟩ := comes
        cases calls with
        | here => exact absurd stops stopping
        | child _ _ leads onwards =>
          obtain ⟨connection, member, leaves, rfl, produced⟩ := leads
          exact ⟨connection, List.mem_filter.mpr ⟨member, decide_eq_true leaves⟩, produced, stops, seen', onwards⟩

theorem runsReadable_of_returns {current node : INode} {seen' : List INode}
    (calls : graph.ComesTo destination runData pinData current seen node seen') (unseen : node ∉ seen') :
    ∀ {fuel startNodes next},
      graph.findStartNodesRecursive destination runData pinData fuel current startNodes seen = .ok next →
        graph.RunsReadable destination runData pinData node ∧
          (Stopping destination runData pinData node ∨ graph.Contains node) := by
  induction calls with
  | @here current seen =>
    intro fuel startNodes next returns
    refine ⟨⟨lastRun_of_call_returns returns, fun goesOn connection member leaves => ?_⟩, ?_⟩
    · obtain ⟨_, fewer, loop⟩ := loop_of_call_returns returns goesOn unseen
      obtain ⟨before, after, turn⟩ := Loop.exists_turn_of_mem_foldlM loop
        (List.mem_filter.mpr ⟨member, decide_eq_true leaves⟩)
      exact leaves ▸ scannable_of_followed turn
    · by_cases stopping : Stopping destination runData pinData current
      · exact .inl stopping
      · exact .inr (loop_of_call_returns returns stopping unseen).1
  | child goesOn notSeen leads _ ih =>
    intro fuel startNodes next returns
    obtain ⟨connection, member, leaves, rfl, produced⟩ := leads
    obtain ⟨_, fewer, loop⟩ := loop_of_call_returns returns goesOn notSeen
    obtain ⟨before, after, turn⟩ := Loop.exists_turn_of_mem_foldlM loop
      (List.mem_filter.mpr ⟨member, decide_eq_true leaves⟩)
    rw [followConnection_of_produced produced (scannable_of_followed turn)] at turn
    exact ih unseen turn

/-- On a cyclic graph, too, the call stack is no deeper than the graph has nodes. -/
theorem findStartNodesRecursive_ne_rangeError (wellFormed : graph.WellFormed) (fuel : Nat) :
    ∀ current startNodes seen, (Traversal.unmarked graph.nodes.values seen).length < fuel →
      graph.findStartNodesRecursive destination runData pinData fuel current startNodes seen ≠
        .error .rangeError := by
  induction fuel with
  | zero => intro _ _ _ enough; omega
  | succ fuel ih =>
    intro current startNodes seen enough fails
    rw [findStartNodesRecursive] at fails
    split at fails
    · cases fails
    split at fails
    · cases fails
    split at fails
    · rename_i thrown isOpen
      rw [Except.error.inj fails] at isOpen
      exact loopIsNotDone_ne_rangeError isOpen
    · cases fails
    split at fails
    · cases fails
    rename_i unseen
    split at fails
    · rename_i thrown children
      rw [Except.error.inj fails, getDirectChildConnections] at children
      split at children <;> cases children
    · rename_i connections children
      have contains : graph.Contains current := by
        rw [getDirectChildConnections] at children
        split at children
        · assumption
        · cases children
      have fewer := Traversal.length_unmarked_lt (wellFormed.contains_iff.mp contains) unseen
      obtain ⟨connection, _, before, throws⟩ := Loop.exists_turn_of_foldlM_error fails
      exact followConnection_ne_rangeError
        (ih connection.to before (seen ++ [current]) (by omega)) throws

theorem findStartNodes_ne_rangeError (wellFormed : graph.WellFormed) :
    graph.findStartNodes trigger destination runData pinData ≠ .error .rangeError := by
  refine findStartNodesRecursive_ne_rangeError wellFormed _ trigger [] [] ?_
  exact Nat.lt_succ_of_le (Nat.le_trans (List.length_filter_le _ _) (Nat.le_of_eq graph.nodes.length_values))

theorem RunsReadable.of_main (onlyMain : ∀ connection ∈ graph.connections.values, connection.type = .main)
    (lists : ∀ nodeName, ∀ run ∈ runsOf runData nodeName, hasOutputs .main run = true) (node : INode) :
    graph.RunsReadable destination runData pinData node where
  lastRun := fun _ _ _ run isLast => lists node.name run (List.mem_of_getLast? isLast)
  outputs := by
    intro _ connection member _
    rw [onlyMain connection member]
    exact scannable_of_hasOutputs (lists node.name)

end

/-- The search ends, and it finds exactly the stopping nodes at the end of a walk if and only if it can start at the
trigger and can read the runs of every node a walk leads to. -/
theorem findStartNodes_exact_iff (graph : DirectedGraph) (wellFormed : graph.WellFormed)
    (trigger destination : INode) (runData : IRunData Item) (pinData : IPinData Item) :
    graph.findStartNodes trigger destination runData pinData ≠ .error .rangeError ∧
      ((∃ startNodes, graph.findStartNodes trigger destination runData pinData = .ok startNodes ∧
        ∀ node, node ∈ startNodes ↔ Stopping destination runData pinData node ∧
          graph.Walked trigger destination runData pinData node) ↔
      (Stopping destination runData pinData trigger ∨ graph.Contains trigger) ∧
        ∀ node, graph.Walked trigger destination runData pinData node →
          graph.RunsReadable destination runData pinData node) := by
  refine ⟨findStartNodes_ne_rangeError wellFormed, ?_, ?_⟩
  · intro isExact
    obtain ⟨startNodes, returns, _⟩ := isExact
    refine ⟨(runsReadable_of_returns .here List.not_mem_nil returns).2, fun node walked => ?_⟩
    obtain ⟨seen, calls, unseen⟩ := PathSearch.exists_calls walked
    exact (runsReadable_of_returns calls unseen returns).1
  · intro condition
    obtain ⟨known, reads⟩ := condition
    obtain ⟨startNodes, returns, found⟩ := findStartNodesRecursive_returns wellFormed
      (graph.nodes.size + 1) trigger [] [] known
      (Nat.lt_succ_of_le (Nat.le_trans (List.length_filter_le _ _) (Nat.le_of_eq graph.nodes.length_values)))
      fun node seen' calls => reads node calls.reached
    refine ⟨startNodes, returns, fun node => ?_⟩
    rw [found, or_iff_right List.not_mem_nil]
    exact and_congr_right fun _ => PathSearch.exists_calls_iff

namespace ToolRun

def trigger : INode := { id := "0", name := "trigger", type := "trigger" }
def store : INode := { id := "1", name := "store", type := "vectorStore" }
def destination : INode := { id := "2", name := "destination", type := "set" }

/-- The destination leads back to the node before it. -/
def graph : DirectedGraph where
  nodes := [trigger, store, destination].foldl (fun nodes node => nodes.set node.name node) ∅
  connections := [⟨trigger, store, .main, 0, 0⟩, ⟨store, destination, .main, 0, 0⟩,
    ⟨destination, store, .main, 0, 0⟩].foldl
      (fun connections connection => connections.set (makeKey connection) connection) ∅

def ran (connectionType : NodeConnectionType) : List (ITaskData Nat) :=
  [⟨some ((∅ : ITaskDataConnections Nat).set connectionType [.full [1]])⟩]

def allMain : IRunData Nat := ((∅ : IRunData Nat).set "trigger" (ran .main)).set "store" (ran .main)

theorem findStartNodes_exact : ∃ startNodes, graph.findStartNodes trigger destination allMain ∅ = .ok startNodes ∧
    ∀ node, node ∈ startNodes ↔ Stopping destination allMain ∅ node ∧
      graph.Walked trigger destination allMain ∅ node := by
  refine (findStartNodes_exact_iff graph (by decide) trigger destination allMain ∅).2.mpr
    ⟨.inr (by decide), fun node _ => RunsReadable.of_main (by decide) (fun nodeName => ?_) node⟩
  have lists : ∀ runs ∈ allMain.values, ∀ run ∈ runs, hasOutputs .main run = true := by decide
  intro run member
  cases found : allMain.get? nodeName with
  | none => simp [runsOf, found] at member
  | some runs =>
    rw [runsOf, found] at member
    exact lists runs (OrderedMap.mem_values.mpr ⟨nodeName, OrderedMap.get?_eq_some.mp found⟩) run member

/-- The node in the middle ran as a tool: its run has data, but no `main` outputs. -/
def asTool : IRunData Nat := ((∅ : IRunData Nat).set "trigger" (ran .main)).set "store" (ran .aiTool)

theorem findStartNodes_not_exact : graph.WellFormed ∧
    (∀ connection ∈ graph.connections.values, connection.type = .main) ∧
    graph.Contains trigger ∧ graph.Contains destination ∧
    ¬ ∃ startNodes, graph.findStartNodes trigger destination asTool ∅ = .ok startNodes ∧
      ∀ node, node ∈ startNodes ↔ Stopping destination asTool ∅ node ∧
        graph.Walked trigger destination asTool ∅ node := by
  refine ⟨by decide, by decide, by decide, by decide, fun isExact => ?_⟩
  obtain ⟨startNodes, returns, _⟩ := isExact
  have throws : graph.findStartNodes trigger destination asTool ∅ =
      .error (.typeError "Cannot read properties of undefined (reading 'at')") := rfl
  rw [throws] at returns
  cases returns

end ToolRun

end DirectedGraph

end N8n.Core
