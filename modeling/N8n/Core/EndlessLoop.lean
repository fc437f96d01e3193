import N8n.Core.ExecutionLoop
import N8n.Library.Errors
import N8n.Library.Rotation

/-! # The check for an endless loop

An item whose input data is missing goes back to the end of the stack, and the
loop remembers the node and the run index it tried.  It throws when the next
item has the same ones.  The items that cannot run go round meanwhile, so the
check sees only two in a row that belong to the same node.
-/

namespace N8n.Core

variable {Item : Type}

def endlessLoop : Thrown := .applicationError "Stopped execution because it seems to be in an endless loop"

/-- `currentExecutionTry` of an item. -/
def currentExecutionTry (runData : IRunData Item) (item : IExecuteData Item) : Option (String × Nat) :=
  item.node.map fun node => (node.name, ((runData.get? node.name).getD []).length)

def ChecksInputData (env : Environment) (item : IExecuteData Item) (dataMissing : Bool) : Prop :=
  ∃ node, item.node = some node ∧ isSkipped env node.name = false ∧
    inputDataMissing env.workflow node.name item.data = .ok dataMissing

/-- The item fails the check of its input data, and is only put back. -/
def IsStuck (env : Environment) (item : IExecuteData Item) : Prop := ChecksInputData env item true

def CanRun (env : Environment) (item : IExecuteData Item) : Prop := ChecksInputData env item false

/-! ## What the check should do -/

/-- Every configuration that the loop gets to from a configuration, whatever the nodes do. -/
def GetsTo (env : Environment) [Inhabited Item] (start config : Config Item) : Prop :=
  LoopRun env (fun _ _ => True) start config

/-- From here on, every item that is taken from the stack is only put back. -/
def OnlyPutsBack (env : Environment) [Inhabited Item] (config : Config Item) : Prop :=
  ∀ later, GetsTo env config later →
    ∃ item rest, later.execution.nodeExecutionStack = item :: rest ∧ IsStuck env item

/-- The loop stops with the endless loop error within a number of turns, whatever the nodes do. -/
def StopsWithin (env : Environment) [Inhabited Item] : Nat → Config Item → Prop
  | 0, _ => False
  | turns + 1, config => ∀ attempted, step env attempted config = .error endlessLoop ∨
      ∃ next, step env attempted config = .ok next ∧ StopsWithin env turns next

/-- The loop stops when nothing can run any more, and it does not stop while an item can run. -/
structure GuardComplete (env : Environment) [Inhabited Item] (config : Config Item) : Prop where
  stops : config.phase = .condition → OnlyPutsBack env config → ∃ turns, StopsWithin env turns config
  last : ∀ attempted, step env attempted config = .error endlessLoop →
    ∀ item ∈ config.execution.nodeExecutionStack, ¬ CanRun env item

/-! ## When it does -/

/-- The first item of the stack belongs to the node that was tried last, at the same run index. -/
def TriesAgain (config : Config Item) : Prop :=
  ∃ item rest, config.execution.nodeExecutionStack = item :: rest ∧
    currentExecutionTry config.runData item ≠ none ∧
    config.lastExecutionTry = currentExecutionTry config.runData item

/-- The tries of the next round, with the last one before it and the first one after it. -/
def tries (config : Config Item) : List (Option (String × Nat)) :=
  Rotation.round config.lastExecutionTry
    (config.execution.nodeExecutionStack.map (currentExecutionTry config.runData))

/-- When all items are stuck the same try comes twice in a row, and otherwise the one before is not tried again. -/
structure GuardFits (env : Environment) (config : Config Item) : Prop where
  repeats : config.phase = .condition → config.execution.nodeExecutionStack ≠ [] →
    (∀ item ∈ config.execution.nodeExecutionStack, IsStuck env item) → ¬ (tries config).IsChain (· ≠ ·)
  differs : config.phase = .condition → (∃ item ∈ config.execution.nodeExecutionStack, CanRun env item) →
    ¬ TriesAgain config

/-! ## One turn -/

section

variable {env : Environment} [Inhabited Item] {attempted : Attempted Item} {config : Config Item}

theorem step_of_triesAgain (phase : config.phase = .condition) (again : TriesAgain config) :
    step env attempted config = .error endlessLoop := by
  obtain ⟨item, rest, stack, named, same⟩ := again
  obtain ⟨tried, isTried⟩ := Option.ne_none_iff_exists'.mp named
  obtain ⟨node, isNode, rfl⟩ := Option.map_eq_some_iff.mp isTried
  rw [isTried] at same
  simp only [step, phase, executeNext, stack, isNode, same, if_true]
  rfl

def putBack (config : Config Item) (item : IExecuteData Item) (rest : List (IExecuteData Item)) : Config Item :=
  { config with
    execution := { config.execution with nodeExecutionStack := rest ++ [item] }
    lastExecutionTry := currentExecutionTry config.runData item }

theorem step_of_isStuck (phase : config.phase = .condition) {item : IExecuteData Item}
    {rest : List (IExecuteData Item)} (stack : config.execution.nodeExecutionStack = item :: rest)
    (stuck : IsStuck env item) (differs : ¬ TriesAgain config) :
    step env attempted config = .ok (putBack config item rest) := by
  obtain ⟨node, isNode, notSkipped, missing⟩ := stuck
  have tried : currentExecutionTry config.runData item =
      some (node.name, ((config.runData.get? node.name).getD []).length) := by
    rw [currentExecutionTry, isNode]
    rfl
  have other : config.lastExecutionTry ≠ some (node.name, ((config.runData.get? node.name).getD []).length) :=
    fun same => differs ⟨item, rest, stack, by rw [tried]; nofun, same.trans tried.symm⟩
  simp only [step, phase, executeNext, stack, isNode, if_neg other, notSkipped, missing, putBack, tried]
  rfl

end

/-! ## Nothing else throws the error -/

section

open Errors

theorem avoids_typeError (message : String) {α : Type} :
    Avoids endlessLoop (.error (.typeError message) : Except Thrown α) := avoids_error nofun

variable (workflow : Workflow)

theorem avoids_getHighestNodeFrom (type : NodeConnectionType) (fuel : Nat) :
    ∀ nodeName index checkedNodes,
      Avoids endlessLoop (workflow.getHighestNodeFrom type fuel nodeName index checkedNodes) := by
  induction fuel with
  | zero => exact fun _ _ _ => avoids_error nofun
  | succ fuel ih =>
    intro nodeName index checkedNodes
    rw [Workflow.getHighestNodeFrom]
    split
    · exact avoids_typeError _
    dsimp only
    split
    · exact avoids_ok _
    · refine .ite (avoids_ok _) (avoids_foldlM (fun found connection => ?_) _ _)
      exact .ite (avoids_ok _) ((ih _ _ _).bind fun added => avoids_ok _)

theorem avoids_inputDataMissing (nodeName : String) (data : ITaskDataConnections Item) :
    Avoids endlessLoop (inputDataMissing workflow nodeName data) := by
  rw [inputDataMissing]
  split
  · exact avoids_ok _
  · refine avoids_anyM (fun connectionIndex => ?_) _
    refine (avoids_getHighestNodeFrom _ _ _ _ _ _).map.bind fun highestNodes => ?_
    refine .ite (avoids_ok _) ?_
    split
    · exact avoids_ok _
    · exact avoids_ok _

theorem avoids_mainInputs (nodeName : String) :
    Avoids endlessLoop (workflow.mainInputs nodeName) := by
  rw [Workflow.mainInputs]
  split
  · exact avoids_typeError _
  · split
    · exact avoids_typeError _
    · exact avoids_ok _

theorem avoids_mainOf {α : Type} (entry : Option (OrderedMap NodeConnectionType (List (Slot α)))) :
    Avoids endlessLoop (mainOf entry) := by
  rw [mainOf]
  split
  · exact avoids_typeError _
  · exact avoids_ok _

variable (runData : IRunData Item)

theorem avoids_incomingConnectionIsEmpty (runIndex : Nat) (connections : List IConnection) :
    Avoids endlessLoop (incomingConnectionIsEmpty runData runIndex connections) := by
  induction connections with
  | nil => exact avoids_ok _
  | cons connection rest ih =>
    rw [incomingConnectionIsEmpty]
    split
    · exact ih
    · exact avoids_typeError _
    · exact .ite ih (avoids_ok _)

theorem avoids_firstInputIsEmpty (runIndex : Nat) (nodeName : String) :
    Avoids endlessLoop (firstInputIsEmpty workflow runData runIndex nodeName) :=
  (avoids_mainInputs workflow nodeName).bind fun _ => avoids_incomingConnectionIsEmpty _ _ _

theorem avoids_findWaitingEntry (nodeWaiting : OrderedMap Nat (ITaskDataConnections Item)) (index : Nat)
    (keys : List Nat) : Avoids endlessLoop (findWaitingEntry nodeWaiting index keys) := by
  induction keys with
  | nil => exact avoids_ok _
  | cons key rest ih =>
    rw [findWaitingEntry]
    exact (avoids_mainOf _).bind fun main => .ite ih (avoids_ok _)

theorem avoids_storeDelivery (state : ExecutionState Item) (numberOfInputs : Nat) (delivery : Delivery Item) :
    Avoids endlessLoop (storeDelivery state numberOfInputs delivery) := by
  refine (avoids_findWaitingEntry _ _ _).bind fun found => ?_
  exact (avoids_mainOf _).map.bind fun _ => (avoids_mainOf _).map.bind fun _ => avoids_ok _

theorem avoids_keepWaiting (state : ExecutionState Item) (numberOfInputs : Nat) (delivery : Delivery Item)
    (waitingNodeIndex : Nat) : Avoids endlessLoop (keepWaiting state numberOfInputs delivery waitingNodeIndex) :=
  (avoids_mainOf _).bind fun _ => (avoids_mainOf _).map.bind fun _ => avoids_ok _

theorem avoids_stackNodeName (item : IExecuteData Item) : Avoids endlessLoop (stackNodeName item) := by
  rw [stackNodeName]
  split
  · exact avoids_typeError _
  · exact avoids_ok _

theorem avoids_hasNoItems (delivery : Delivery Item) : Avoids endlessLoop delivery.hasNoItems := by
  rw [Delivery.hasNoItems]
  split
  · exact avoids_ok _
  · exact avoids_typeError _

theorem avoids_forceInput [Inhabited Item] (delivery : Delivery Item)
    (checkOutputNodes : List String) (nodeExecutionStack : List (IExecuteData Item)) (inputData : IConnection) :
    Avoids endlessLoop
      (forceInput workflow runData delivery checkOutputNodes nodeExecutionStack inputData) := by
  refine .ite (avoids_ok _) ?_
  refine (avoids_mapM avoids_stackNodeName _).bind fun executionStackNodes => ?_
  refine (Avoids.ite (avoids_firstInputIsEmpty _ _ _ _).map (avoids_ok _)).bind fun isSibling => ?_
  refine .ite (avoids_ok _) ?_
  refine (Avoids.ite (avoids_hasNoItems delivery) (avoids_ok _)).bind fun withoutData => ?_
  split
  · exact avoids_ok _
  · refine (Avoids.ite (avoids_firstInputIsEmpty _ _ _ _) (avoids_ok _)).bind fun addEmptyItem => ?_
    exact .ite (avoids_ok _) (avoids_ok _)

theorem avoids_forceInputs [Inhabited Item] (delivery : Delivery Item)
    (nodeExecutionStack : List (IExecuteData Item)) :
    Avoids endlessLoop (forceInputs workflow runData delivery nodeExecutionStack) := by
  have outputs : Avoids endlessLoop (checkOutputNodes workflow delivery.parentNodeName) := by
    rw [checkOutputNodes]
    split
    · exact avoids_typeError _
    · exact avoids_ok _
  exact outputs.bind fun _ => (avoids_mainInputs _ _).bind fun _ =>
    avoids_foldlM (avoids_forceInput workflow runData delivery _) _ _

theorem avoids_addNodeToBeExecuted [Inhabited Item]
    (state : ExecutionState Item) (delivery : Delivery Item) :
    Avoids endlessLoop (addNodeToBeExecuted workflow runData state delivery) := by
  refine (avoids_mainInputs _ _).bind fun inputs => ?_
  refine .ite ?_ (avoids_ok _)
  refine (avoids_storeDelivery _ _ _).bind fun stored => (avoids_mainOf _).bind fun main => ?_
  refine .ite ?_ (avoids_ok _)
  exact (Avoids.ite (avoids_ok _) (avoids_forceInputs _ _ _ _)).bind fun _ => avoids_keepWaiting _ _ _ _

theorem avoids_handOver [Inhabited Item] (nodeName : String)
    (runIndex : Nat) (nodeSuccessData : List (Slot (List Item))) (state : ExecutionState Item) :
    Avoids endlessLoop (handOver workflow runData nodeName runIndex nodeSuccessData state) := by
  have toFollow : Avoids endlessLoop (connectionsToFollow workflow nodeName nodeSuccessData) := by
    rw [connectionsToFollow]
    split
    · exact avoids_ok _
    · exact .ite (avoids_error (by decide)) (avoids_ok _)
  exact toFollow.bind fun _ =>
    avoids_foldlM (fun state connection => avoids_addNodeToBeExecuted workflow runData state _) _ _

theorem avoids_finishNode [Inhabited Item] (env : Environment) (node : INode) (runIndex : Nat)
    (nodeSuccessData : List (Slot (List Item))) (config : Config Item) :
    Avoids endlessLoop (finishNode env node runIndex nodeSuccessData config) := by
  refine .ite (avoids_typeError _) (.ite (avoids_ok _) ?_)
  exact (avoids_handOver _ _ _ _ _ _).bind fun _ => avoids_ok _

theorem avoids_findEntryToTake (env : Environment) (state : ExecutionState Item) (names : List String) :
    Avoids endlessLoop (findEntryToTake env state names) := by
  have taken : ∀ nodeName, Avoids endlessLoop (waitingEntryToTake env state nodeName) := by
    intro nodeName
    rw [waitingEntryToTake]
    split
    · exact avoids_ok _
    · refine .ite (avoids_ok _) (.ite (avoids_ok _) ?_)
      split
      · exact avoids_typeError _
      · exact (avoids_mainOf _).bind fun _ => avoids_ok _
  induction names with
  | nil => exact avoids_ok _
  | cons nodeName rest ih =>
    refine (taken nodeName).bind fun entry => ?_
    cases entry with
    | some found => exact avoids_ok _
    | none => exact ih

theorem avoids_lookAtWaiting (env : Environment) (config : Config Item) :
    Avoids endlessLoop (lookAtWaiting env config) := by
  refine .ite (avoids_ok _) ((avoids_findEntryToTake _ _ _).bind fun entry => ?_)
  cases entry with
  | none => exact avoids_ok _
  | some entry => exact .ite (avoids_typeError _) (.ite (avoids_ok _) (avoids_ok _))

theorem triesAgain_of_endlessLoop [Inhabited Item] {env : Environment} {attempted : Attempted Item}
    {config : Config Item} (throws : step env attempted config = .error endlessLoop) :
    config.phase = .condition ∧ TriesAgain config := by
  rw [step] at throws
  split at throws
  case h_2 phase => exact absurd throws (avoids_lookAtWaiting env config)
  case h_3 phase => cases throws
  case h_1 phase =>
    refine ⟨phase, ?_⟩
    rw [executeNext] at throws
    split at throws
    · cases throws
    rename_i item rest stack
    split at throws
    · cases throws
    rename_i node isNode
    dsimp only at throws
    split at throws
    next same =>
      have tried : currentExecutionTry config.runData item =
          some (node.name, ((config.runData.get? node.name).getD []).length) := by
        rw [currentExecutionTry, isNode]
        rfl
      have isSome : currentExecutionTry config.runData item ≠ none := tried ▸ Option.some_ne_none _
      exact ⟨item, rest, stack, isSome, same.trans tried.symm⟩
    next differs =>
      refine absurd throws (Avoids.ite (avoids_ok _) ?_)
      refine (avoids_inputDataMissing _ _ _).bind fun dataMissing => .ite (avoids_ok _) ?_
      cases attempted with
      | nothing => exact avoids_ok _
      | succeeded nodeSuccessData => exact avoids_finishNode _ _ _ _ _
      | failed nodeSuccessData =>
        refine .ite ?_ (avoids_ok _)
        split
        · exact avoids_typeError _
        · exact avoids_finishNode _ _ _ _ _

end

/-! ## Items that cannot run go round -/

section

variable {env : Environment} [Inhabited Item] {config : Config Item}

theorem GetsTo.refl : GetsTo env config config := LoopRun.start

theorem GetsTo.of_step {next later : Config Item} {attempted : Attempted Item} (goesOn : ¬ Ended config)
    (returns : step env attempted config = .ok next) (reached : GetsTo env next later) : GetsTo env config later := by
  unfold GetsTo at reached
  induction reached with
  | start => exact .step .start goesOn trivial returns
  | step _ goesOn' _ returns' ih => exact .step ih goesOn' trivial returns'

variable {item : IExecuteData Item}

omit [Inhabited Item] in
theorem not_ended {rest : List (IExecuteData Item)} (stack : config.execution.nodeExecutionStack = item :: rest) :
    ¬ Ended config := by
  intro ended
  rw [ended.2] at stack
  cases stack

omit [Inhabited Item] in
theorem IsStuck.currentExecutionTry_ne_none (stuck : IsStuck env item) (runData : IRunData Item) :
    currentExecutionTry runData item ≠ none := by
  obtain ⟨node, isNode, _⟩ := stuck
  rw [currentExecutionTry, isNode]
  nofun

/-- Nothing on the stack can run, so the loop only rotates it. -/
structure AllStuck (env : Environment) (config : Config Item) : Prop where
  phase : config.phase = .condition
  notEmpty : config.execution.nodeExecutionStack ≠ []
  stuck : ∀ item ∈ config.execution.nodeExecutionStack, IsStuck env item

omit [Inhabited Item] in
theorem AllStuck.putBack (allStuck : AllStuck env config) {rest : List (IExecuteData Item)}
    (stack : config.execution.nodeExecutionStack = item :: rest) :
    AllStuck env (putBack config item rest) := by
  refine ⟨allStuck.phase, List.append_ne_nil_of_right_ne_nil rest (List.cons_ne_nil item []), fun other member => ?_⟩
  apply allStuck.stuck
  rw [stack]
  obtain later | first := List.mem_append.mp member
  · exact List.mem_cons_of_mem item later
  · rw [List.mem_singleton.mp first]
    exact List.mem_cons_self

theorem AllStuck.onlyPutsBack (allStuck : AllStuck env config) : OnlyPutsBack env config := by
  have kept : ∀ later, GetsTo env config later → AllStuck env later := by
    intro later reached
    unfold GetsTo at reached
    induction reached with
    | start => exact allStuck
    | @step before after attempted _ _ _ returns ih =>
      obtain ⟨item, rest, stack⟩ := List.exists_cons_of_ne_nil ih.notEmpty
      by_cases again : TriesAgain before
      · rw [step_of_triesAgain ih.phase again] at returns
        cases returns
      · have stuck := ih.stuck item (by rw [stack]; exact List.mem_cons_self)
        rw [step_of_isStuck ih.phase stack stuck again] at returns
        cases returns
        exact ih.putBack stack
  intro later reached
  have stuckLater := kept later reached
  obtain ⟨item, rest, stack⟩ := List.exists_cons_of_ne_nil stuckLater.notEmpty
  exact ⟨item, rest, stack, stuckLater.stuck item (by rw [stack]; exact List.mem_cons_self)⟩

/-- A stack of stuck items is a line of tries that goes round. -/
theorem AllStuck.stopsWithin_iff (allStuck : AllStuck env config) (turns : Nat) :
    StopsWithin env turns config ↔ Rotation.StopsWithin turns config.lastExecutionTry
      (config.execution.nodeExecutionStack.map (currentExecutionTry config.runData)) := by
  induction turns generalizing config with
  | zero => exact Iff.rfl
  | succ turns ih =>
    obtain ⟨item, rest, stack⟩ := List.exists_cons_of_ne_nil allStuck.notEmpty
    have stuck := allStuck.stuck item (by rw [stack]; exact List.mem_cons_self)
    have named := stuck.currentExecutionTry_ne_none config.runData
    rw [stack, List.map_cons]
    by_cases same : config.lastExecutionTry = currentExecutionTry config.runData item
    · have again : TriesAgain config := ⟨item, rest, stack, named, same⟩
      exact iff_of_true (fun _ => .inl (step_of_triesAgain allStuck.phase again)) (.inl same)
    · have differs : ¬ TriesAgain config := by
        rintro ⟨first, others, stack', _, same'⟩
        rw [stack] at stack'
        cases stack'
        exact same same'
      have later := ih (allStuck.putBack stack)
      simp only [Core.putBack, List.map_append, List.map_cons, List.map_nil] at later
      refine Iff.trans ?_ (later.trans (or_iff_right same).symm)
      constructor
      · intro stops
        obtain throws | ⟨next, returns, stopsLater⟩ := stops .nothing
        · rw [step_of_isStuck allStuck.phase stack stuck differs] at throws
          cases throws
        · rw [step_of_isStuck allStuck.phase stack stuck differs] at returns
          cases returns
          exact stopsLater
      · intro stopsLater attempted
        exact .inr ⟨_, step_of_isStuck allStuck.phase stack stuck differs, stopsLater⟩

/-- A loop that only puts back comes past every item, unless it stops before. -/
theorem OnlyPutsBack.stops_or_stuck {front back : List (IExecuteData Item)} (phase : config.phase = .condition)
    (putsBack : OnlyPutsBack env config) (stack : config.execution.nodeExecutionStack = front ++ back) :
    (∃ turns, StopsWithin env turns config) ∨ ∀ item ∈ front, IsStuck env item := by
  induction front generalizing config back with
  | nil => exact .inr fun _ member => absurd member List.not_mem_nil
  | cons item rest ih =>
    obtain ⟨first, others, stack', stuck⟩ := putsBack config .refl
    rw [stack] at stack'
    cases stack'
    by_cases again : TriesAgain config
    · exact .inl ⟨1, fun _ => .inl (step_of_triesAgain phase again)⟩
    · have steps : ∀ attempted, step env attempted config = .ok (putBack config item (rest ++ back)) :=
        fun _ => step_of_isStuck phase stack stuck again
      have putsBackLater : OnlyPutsBack env (putBack config item (rest ++ back)) :=
        fun later reached => putsBack later (reached.of_step (not_ended stack) (steps .nothing))
      obtain ⟨turns, stops⟩ | stuckToo := @ih (putBack config item (rest ++ back)) (back ++ [item])
        phase putsBackLater (List.append_assoc _ _ _)
      · exact .inl ⟨turns + 1, fun attempted => .inr ⟨_, steps attempted, stops⟩⟩
      · refine .inr fun other member => ?_
        obtain rfl | later := List.mem_cons.mp member
        · exact stuck
        · exact stuckToo other later

theorem guardComplete_iff : GuardComplete env config ↔ GuardFits env config := by
  constructor
  · intro complete
    refine ⟨fun phase notEmpty stuck differ => ?_, fun phase canRun again => ?_⟩
    · have allStuck : AllStuck env config := ⟨phase, notEmpty, stuck⟩
      obtain ⟨turns, stops⟩ := complete.stops phase allStuck.onlyPutsBack
      exact Rotation.not_stopsWithin_of_isChain differ ((allStuck.stopsWithin_iff turns).mp stops)
    · obtain ⟨item, member, runs⟩ := canRun
      exact complete.last .nothing (step_of_triesAgain phase again) item member runs
  · intro fits
    refine ⟨fun phase putsBack => ?_, fun attempted throws item member runs => ?_⟩
    · obtain stops | stuck := putsBack.stops_or_stuck phase (List.append_nil _).symm
      · exact stops
      · obtain ⟨first, others, stack, _⟩ := putsBack config .refl
        have allStuck : AllStuck env config := ⟨phase, by rw [stack]; exact List.cons_ne_nil _ _, stuck⟩
        obtain ⟨turns, stops⟩ := (Rotation.stopsWithin_iff (by simpa using allStuck.notEmpty)).mpr
          (fits.repeats phase allStuck.notEmpty stuck)
        exact ⟨turns, (allStuck.stopsWithin_iff turns).mpr stops⟩
    · obtain ⟨phase, again⟩ := triesAgain_of_endlessLoop throws
      exact fits.differs phase ⟨item, member, runs⟩ again

end

/-- The check is complete in a run exactly when, in every state of the run, stuck items bring the same try twice in a
row and an item that can run does not find the last try first in line. -/
theorem endlessLoop_guardComplete_iff (env : Environment) [Inhabited Item] (start : Config Item) :
    (∀ config, GetsTo env start config → GuardComplete env config) ↔
      ∀ config, GetsTo env start config → GuardFits env config :=
  forall₂_congr fun _ _ => guardComplete_iff

namespace TwoStuckNodes

def source : INode := { id := "1", name := "source", type := "set" }
def first : INode := { id := "2", name := "first", type := "set" }
def second : INode := { id := "3", name := "second", type := "set" }

def input (nodeName : String) : IConnection := { node := nodeName, type := .main, index := 0 }

/-- Both nodes get their input from the source. -/
def env : Environment where
  workflow := .new [source, first, second]
    ((∅ : IConnections).set "source" ((∅ : OrderedMap NodeConnectionType _).set .main
      [.full [input "first", input "second"]])) {}
  description := fun _ => { inputs := 1 }

/-- An item that has nothing at its input. -/
def withoutInput (node : INode) : IExecuteData Nat where
  node := some node
  data := onlyMain [.null]
  source := none

def start : Config Nat where
  execution := ⟨[withoutInput first, withoutInput second], ∅, ∅⟩
  runData := ∅

/-- The two items take turns, so that no try comes twice in a row. -/
theorem not_guardComplete : ¬ ∀ config, GetsTo env start config → GuardComplete env config := by
  intro complete
  have fits := guardComplete_iff.mp (complete start .refl)
  refine fits.repeats rfl (List.cons_ne_nil _ _) (fun item member => ?_) (by decide)
  obtain rfl | rfl : item = withoutInput first ∨ item = withoutInput second := by
    simpa [start] using member
  · exact ⟨first, rfl, rfl, rfl⟩
  · exact ⟨second, rfl, rfl, rfl⟩

end TwoStuckNodes

end N8n.Core
