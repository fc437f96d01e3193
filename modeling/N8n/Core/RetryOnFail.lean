import Mathlib.Data.List.Basic
import N8n.Core.ExecutionLoop
import N8n.Workflow.WorkflowDataProxy

/-! # Retrying a node

The loop over the tries of a node in `WorkflowExecute.processRunExecutionData`
(`workflow-execute.ts`), with
`assignPairedItems`.  What the calls of `runNode` come to is an argument, and so
is what `handleNodeErrorOutput` does to an output.  The pauses between the tries
are left out, as are hints, `waitTill` and `closeFunction`.
-/

namespace N8n.Core

/-- `json` is an object whose values are not looked into. -/
structure INodeExecutionData (Value : Type) where
  json : OrderedMap String Value
  pairedItem : Option PairedItem := none
deriving DecidableEq

variable {Value : Type}

abbrev NodeItem (Value : Type) := INodeExecutionData Value

structure NodeTurn (Value : Type) where
  node : INode
  /-- `executionData.data` -/
  inputData : ITaskDataConnections (NodeItem Value)
  /-- The pin data of the node, if it has some and is not disabled. -/
  pinned : Option (List (NodeItem Value)) := none
  /-- The output afterwards, and what was thrown. -/
  handleNodeErrorOutput :
    List (Slot (List (NodeItem Value))) → List (Slot (List (NodeItem Value))) × Option Thrown
  /-- What the calls of `runNode` come to, one after the other. -/
  outcomes : Nat → Except Thrown (NodeOutput (NodeItem Value))

def maxTriesOf (node : INode) : Nat :=
  if node.retryOnFail = some true then
    -- `node.maxTries || 3`
    let maxTries := if node.maxTries = none ∨ node.maxTries = some 0 then 3 else node.maxTries.getD 3
    min 5 (max 2 maxTries)
  else 1

/-! ## The output of a try -/

/-- `nodeSuccessData?.at(0)?.at(0)?.json?.error !== undefined`. -/
def didContinueOnFail (nodeSuccessData : NodeOutput (NodeItem Value)) : Bool :=
  match nodeSuccessData with
  | some (.full (item :: _) :: _) => item.json.has "error"
  | _ => false

/-- How a missing `pairedItem` can be fixed automatically. -/
inductive Fix where
  | single
  | sameNumber
  | impossible
deriving DecidableEq

/-- `isSingleInputAndOutput` and `isSameNumberOfItems`. -/
def fixOf (main : List (Slot (List (NodeItem Value)))) (nodeSuccessData : List (Slot (List (NodeItem Value)))) :
    Except Thrown Fix :=
  match main with
  | [first] =>
    let hasItems := fun number => first.isFull ∧ (first.getD []).length = number
    match nodeSuccessData with
    | [.null] => .error (.typeError "Cannot read properties of null (reading 'length')")
    | [.hole] => .error (.typeError "Cannot read properties of undefined (reading 'length')")
    | [.full items] => .ok (if hasItems 1 then .single else if hasItems items.length then .sameNumber else .impossible)
    | _ => .ok (if hasItems 1 then .single else .impossible)
  | _ => .ok .impossible

def fixItem (fix : Fix) (index : Nat) (item : NodeItem Value) : NodeItem Value :=
  if item.pairedItem.isSome then item
  else
    match fix with
    | .single => { item with pairedItem := some (.data { item := 0 }) }
    | .sameNumber => { item with pairedItem := some (.data { item := index }) }
    | .impossible => item

/-- `checkOutputData`: it ends at the first item that cannot be fixed. -/
def checkOutputData (fix : Fix) : List (Slot (List (NodeItem Value))) →
    List (Slot (List (NodeItem Value))) × Option Thrown
  | [] => ([], none)
  | .hole :: rest => (.hole :: rest, some (.typeError "Cannot read properties of undefined (reading 'entries')"))
  | .null :: rest =>
    let (checked, error) := checkOutputData fix rest
    (.null :: checked, error)
  | .full items :: rest =>
    if fix = .impossible ∧ items.any (·.pairedItem.isNone) then (.full items :: rest, none)
    else
      let (checked, error) := checkOutputData fix rest
      (.full (items.mapIdx (fixItem fix)) :: checked, error)

/-- The output afterwards, and what was thrown.  No output is `null` afterwards. -/
def assignPairedItems (inputData : ITaskDataConnections (NodeItem Value))
    (nodeSuccessData : NodeOutput (NodeItem Value)) : NodeOutput (NodeItem Value) × Option Thrown :=
  match nodeSuccessData with
  | none => (none, none)
  | some [] => (some [], none)
  | some outputs =>
    match (mainOf (some inputData)).bind (fixOf · outputs) with
    | .error error => (some outputs, some error)
    | .ok fix =>
      let (checked, error) := checkOutputData fix outputs
      (some checked, error)

def pairedWithAll (main : List (Slot (List (NodeItem Value)))) : PairedItem :=
  .list (main.zipIdx.flatMap fun (inputData, inputIndex) =>
    (List.range (inputData.getD []).length).map fun itemIndex =>
      { item := itemIndex, input := some inputIndex })

/-- A node with `alwaysOutputData` that put nothing on its first output has an empty item there. -/
def ensureOutput (turn : NodeTurn Value) (nodeSuccessData : NodeOutput (NodeItem Value)) :
    NodeOutput (NodeItem Value) × Option Thrown :=
  let withItem := fun (outputs : List (Slot (List (NodeItem Value)))) =>
    if turn.node.alwaysOutputData = some true then
      match mainOf (some turn.inputData) with
      | .error error => (nodeSuccessData, some error)
      | .ok main =>
        (some (SparseArray.write outputs 0 (.full [{ json := ∅, pairedItem := some (pairedWithAll main) }])), none)
    else (nodeSuccessData, none)
  match nodeSuccessData with
  | none => withItem []
  | some outputs =>
    -- `nodeSuccessData[0][0] === undefined`
    match SparseArray.read outputs 0 with
    | .full [] => withItem outputs
    | .full _ => (nodeSuccessData, none)
    | .null => (nodeSuccessData, some (.typeError "Cannot read properties of null (reading '0')"))
    | .hole => (nodeSuccessData, some (.typeError "Cannot read properties of undefined (reading '0')"))

/-- What a try does with the output of its call: what `nodeSuccessData` becomes, and what was thrown. -/
def processOutput (turn : NodeTurn Value) (nodeSuccessData : NodeOutput (NodeItem Value)) :
    NodeOutput (NodeItem Value) × Option Thrown :=
  let handled :=
    match nodeSuccessData with
    | some outputs =>
      if turn.pinned = none ∧ turn.node.onError = some .continueErrorOutput then
        ((some (turn.handleNodeErrorOutput outputs).1 : NodeOutput (NodeItem Value)),
          (turn.handleNodeErrorOutput outputs).2)
      else (some outputs, none)
    | none => (none, none)
  if handled.2.isSome then handled
  else
    let assigned := assignPairedItems turn.inputData handled.1
    if assigned.2.isSome then assigned else ensureOutput turn assigned.1

/-! ## The tries -/

/-- What the loop leaves behind, and how often it called `runNode`. -/
structure Tries (Value : Type) where
  calls : Nat
  nodeSuccessData : NodeOutput (NodeItem Value)
  executionError : Option Thrown

/-- What the turn goes on with. -/
def Tries.attempted (tries : Tries Value) : Attempted (NodeItem Value) :=
  match tries.executionError, tries.nodeSuccessData with
  | some _, nodeSuccessData => .failed nodeSuccessData
  | none, some nodeSuccessData => .succeeded nodeSuccessData
  | none, none => .nothing

/-- The loop `while (didContinueOnFail && tryIndex !== maxTries - 1)`, which may run `left` times.
Returns what was thrown, how often it may still run, and the number of calls. -/
def runAgain (turn : NodeTurn Value) : (left calls : Nat) → Option Thrown × Nat × Nat
  | 0, calls => (none, 0, calls)
  | left + 1, calls =>
    match turn.outcomes calls with
    | .error error => (some error, left + 1, calls + 1)
    -- neither `nodeSuccessData` nor `didContinueOnFail` is assigned
    | .ok _ => runAgain turn left (calls + 1)

theorem runAgain_left_le (turn : NodeTurn Value) (left calls : Nat) : (runAgain turn left calls).2.1 ≤ left := by
  induction left generalizing calls with
  | zero => exact Nat.le_refl 0
  | succ left ih =>
    rw [runAgain]
    split
    · exact Nat.le_refl _
    · exact Nat.le_succ_of_le (ih (calls + 1))

/-- One call of `runNode`, and more if it continued on fail: what was returned first or thrown, how
often the loop over the tries may still run, and the number of calls. -/
def callNode (turn : NodeTurn Value) (nodeSuccessData : NodeOutput (NodeItem Value)) (left calls : Nat) :
    NodeOutput (NodeItem Value) × Option Thrown × Nat × Nat :=
  match turn.pinned with
  | some items => (some [.full items], none, left, calls)
  | none =>
    match turn.outcomes calls with
    | .error error => (nodeSuccessData, some error, left, calls + 1)
    | .ok data =>
      if didContinueOnFail data then (data, runAgain turn left (calls + 1)) else (data, none, left, calls + 1)

theorem callNode_left_le (turn : NodeTurn Value) (nodeSuccessData : NodeOutput (NodeItem Value))
    (left calls : Nat) : (callNode turn nodeSuccessData left calls).2.2.1 ≤ left := by
  rw [callNode]
  split
  · exact Nat.le_refl left
  split
  · exact Nat.le_refl left
  split
  · exact runAgain_left_le turn left (calls + 1)
  · exact Nat.le_refl left

/-- `for (let tryIndex = 0; tryIndex < maxTries; tryIndex++)`, which may run `tries` times.  The error
is the one of the try before. -/
def tryNode (turn : NodeTurn Value) (tries calls : Nat) (nodeSuccessData : NodeOutput (NodeItem Value))
    (executionError : Option Thrown) : Tries Value :=
  match tries with
  | 0 => ⟨calls, nodeSuccessData, executionError⟩
  | left + 1 =>
    let called := callNode turn nodeSuccessData left calls
    match called.2.1 with
    | some error => tryNode turn called.2.2.1 called.2.2.2 called.1 (some error)
    | none =>
      match processOutput turn called.1 with
      | (processed, none) => ⟨called.2.2.2, processed, none⟩
      | (processed, some error) => tryNode turn called.2.2.1 called.2.2.2 processed (some error)
termination_by tries
decreasing_by
  · exact Nat.lt_succ_of_le (callNode_left_le turn nodeSuccessData left calls)
  · exact Nat.lt_succ_of_le (callNode_left_le turn nodeSuccessData left calls)

def runTries (turn : NodeTurn Value) : Tries Value := tryNode turn (maxTriesOf turn.node) 0 none none

/-! ## What is claimed of the tries -/

def Threw (outcome : Except Thrown (NodeOutput (NodeItem Value))) : Prop := ∃ error, outcome = .error error

/-- The node continued on fail: the first item of its output carries an error. -/
def CarriesError (outcome : Except Thrown (NodeOutput (NodeItem Value))) : Prop :=
  ∃ data, outcome = .ok data ∧ didContinueOnFail data = true

def Succeeds (outcome : Except Thrown (NodeOutput (NodeItem Value))) : Prop :=
  ∃ data, outcome = .ok data ∧ didContinueOnFail data = false

/-- What is recorded and handed on is the output of this call, or its error. -/
def Records (turn : NodeTurn Value) (tries : Tries Value) (outcome : Except Thrown (NodeOutput (NodeItem Value))) :
    Prop :=
  match outcome with
  | .error error => tries.executionError = some error ∧ tries.nodeSuccessData = none
  | .ok data => tries.executionError = none ∧ processOutput turn data = (tries.nodeSuccessData, none)

/-- At most `maxTries` calls, none after the first one that succeeds; the output is that of the first
one that succeeds, or of the last one if none does. -/
structure RetriesProperly (turn : NodeTurn Value) (tries : Tries Value) : Prop where
  atMost : tries.calls ≤ maxTriesOf turn.node
  stops : ∀ call, call + 1 < tries.calls → ¬Succeeds (turn.outcomes call)
  first : ∀ call < tries.calls, Succeeds (turn.outcomes call) →
    (∀ earlier < call, ¬Succeeds (turn.outcomes earlier)) → Records turn tries (turn.outcomes call)
  last : ∀ call, call + 1 = tries.calls → (∀ earlier < tries.calls, ¬Succeeds (turn.outcomes earlier)) →
    Records turn tries (turn.outcomes call)

def Processed (turn : NodeTurn Value) (outcome : Except Thrown (NodeOutput (NodeItem Value))) : Prop :=
  ∃ data, outcome = .ok data ∧ (processOutput turn data).2 = none

/-- Both calls returned, and their outputs are processed to the same. -/
def SameOutput (turn : NodeTurn Value) (outcome other : Except Thrown (NodeOutput (NodeItem Value))) : Prop :=
  ∃ data data', outcome = .ok data ∧ other = .ok data' ∧ processOutput turn data = processOutput turn data'

/-- The first call that succeeds is the first of all or follows one that threw, and it is in time. -/
structure FirstSuccess (turn : NodeTurn Value) (maxTries first call : Nat) : Prop where
  later : first ≤ call
  inTime : call < maxTries
  succeeds : Succeeds (turn.outcomes call)
  processed : Processed turn (turn.outcomes call)
  noneBefore : ∀ earlier, first ≤ earlier → earlier < call → ¬Succeeds (turn.outcomes earlier)
  afterThrow : ∀ before, first ≤ before → before + 1 = call → Threw (turn.outcomes before)

/-- All calls throw; or they throw up to one whose item carries an error, from there on all but the last
carry errors, and the last one returns the same output. -/
inductive UsesAllTries (turn : NodeTurn Value) (maxTries first : Nat) : Prop
  | throws (all : ∀ call, first ≤ call → call < maxTries → Threw (turn.outcomes call))
  | continues (call : Nat) (later : first ≤ call) (inTime : call < maxTries)
      (throwBefore : ∀ earlier, first ≤ earlier → earlier < call → Threw (turn.outcomes earlier))
      (carriesError : CarriesError (turn.outcomes call))
      (carry : ∀ between, call ≤ between → between + 1 < maxTries → CarriesError (turn.outcomes between))
      (processed : Processed turn (turn.outcomes call))
      (sameOutput : SameOutput turn (turn.outcomes call) (turn.outcomes (maxTries - 1)))

def Settles (turn : NodeTurn Value) (maxTries : Nat) : Prop :=
  (∃ call, FirstSuccess turn maxTries 0 call) ∨ UsesAllTries turn maxTries 0

/-! ## The calls of a try -/

section

variable {turn : NodeTurn Value} {outcome : Except Thrown (NodeOutput (NodeItem Value))}

theorem outcome_cases (outcome : Except Thrown (NodeOutput (NodeItem Value))) :
    Threw outcome ∨ Succeeds outcome ∨ CarriesError outcome := by
  cases outcome with
  | error error => exact .inl ⟨error, rfl⟩
  | ok data =>
    cases carries : didContinueOnFail data with
    | false => exact .inr (.inl ⟨data, rfl, carries⟩)
    | true => exact .inr (.inr ⟨data, rfl, carries⟩)

theorem Threw.not_succeeds (threw : Threw outcome) : ¬Succeeds outcome := by
  obtain ⟨error, rfl⟩ := threw
  simp [Succeeds]

theorem Threw.not_carriesError (threw : Threw outcome) : ¬CarriesError outcome := by
  obtain ⟨error, rfl⟩ := threw
  simp [CarriesError]

theorem CarriesError.not_succeeds (carriesError : CarriesError outcome) : ¬Succeeds outcome := by
  obtain ⟨data, rfl, carries⟩ := carriesError
  simp [Succeeds, carries]

variable {data : NodeOutput (NodeItem Value)}

theorem not_threw_of_ok (returned : outcome = .ok data) : ¬Threw outcome := by
  rw [returned]
  simp [Threw]

theorem runAgain_cases (turn : NodeTurn Value) (left calls : Nat) :
    (∃ count < left, ∃ error, turn.outcomes (calls + count) = .error error ∧
        (∀ other < count, ∃ data, turn.outcomes (calls + other) = .ok data) ∧
        runAgain turn left calls = (some error, left - count, calls + count + 1)) ∨
      (∀ other < left, ∃ data, turn.outcomes (calls + other) = .ok data) ∧
        runAgain turn left calls = (none, 0, calls + left) := by
  induction left generalizing calls with
  | zero => exact .inr ⟨fun other less => absurd less (Nat.not_lt_zero other), rfl⟩
  | succ left ih =>
    rw [runAgain]
    cases outcome : turn.outcomes calls with
    | error error =>
      exact .inl ⟨0, Nat.succ_pos left, error, outcome, fun other less => absurd less (Nat.not_lt_zero other), rfl⟩
    | ok data =>
      have shift : ∀ other, calls + 1 + other = calls + (other + 1) := fun other => by omega
      cases ih (calls + 1) with
      | inl throws =>
        obtain ⟨count, less, error, isError, before, returns⟩ := throws
        refine .inl ⟨count + 1, by omega, error, shift count ▸ isError, fun other isBefore => ?_, ?_⟩
        · cases other with
          | zero => exact ⟨data, outcome⟩
          | succ other => exact shift other ▸ before other (by omega)
        · rw [returns, Nat.add_sub_add_right, shift]
      | inr ends =>
        obtain ⟨all, returns⟩ := ends
        refine .inr ⟨fun other less => ?_, by rw [returns, shift]⟩
        cases other with
        | zero => exact ⟨data, outcome⟩
        | succ other => exact shift other ▸ all other (by omega)

variable {left calls : Nat} {nodeSuccessData : NodeOutput (NodeItem Value)} {executionError : Option Thrown}

theorem tryNode_zero : tryNode turn 0 calls nodeSuccessData executionError =
    ⟨calls, nodeSuccessData, executionError⟩ := by
  rw [tryNode]

variable {error : Thrown}

theorem tryNode_of_threw (notPinned : turn.pinned = none) (threw : turn.outcomes calls = .error error) :
    tryNode turn (left + 1) calls nodeSuccessData executionError =
      tryNode turn left (calls + 1) nodeSuccessData (some error) := by
  rw [tryNode]
  simp only [callNode, notPinned, threw]

theorem tryNode_of_succeeds (notPinned : turn.pinned = none) (returned : turn.outcomes calls = .ok data)
    (noError : didContinueOnFail data = false) :
    tryNode turn (left + 1) calls nodeSuccessData executionError =
      match processOutput turn data with
      | (processed, none) => ⟨calls + 1, processed, none⟩
      | (processed, some error) => tryNode turn left (calls + 1) processed (some error) := by
  rw [tryNode]
  simp only [callNode, notPinned, returned, noError, Bool.false_eq_true, if_false]

theorem tryNode_of_carriesError (notPinned : turn.pinned = none) (returned : turn.outcomes calls = .ok data)
    (carries : didContinueOnFail data = true) :
    tryNode turn (left + 1) calls nodeSuccessData executionError =
      match runAgain turn left (calls + 1) with
      | (some error, left', calls') => tryNode turn left' calls' data (some error)
      | (none, left', calls') =>
        match processOutput turn data with
        | (processed, none) => ⟨calls', processed, none⟩
        | (processed, some error) => tryNode turn left' calls' processed (some error) := by
  rw [tryNode]
  simp only [callNode, notPinned, returned, carries, if_true]
  rcases runAgain turn left (calls + 1) with ⟨thrown, left', calls'⟩
  cases thrown <;> rfl

/-- Every try calls `runNode`. -/
theorem lt_calls_tryNode (notPinned : turn.pinned = none) {tries : Nat} (some : 0 < tries) :
    calls < (tryNode turn tries calls nodeSuccessData executionError).calls := by
  induction tries using Nat.strong_induction_on generalizing calls nodeSuccessData executionError with
  | _ tries ih =>
    obtain ⟨left, rfl⟩ := Nat.exists_eq_succ_of_ne_zero (Nat.ne_of_gt some)
    have goesOn : ∀ left' calls' data error, left' ≤ left → calls < calls' →
        calls < (tryNode turn left' calls' data error).calls := by
      intro left' calls' data error notMore more
      cases Nat.eq_zero_or_pos left' with
      | inl zero =>
        rw [zero, tryNode_zero]
        exact more
      | inr isSome => exact Nat.lt_trans more (ih left' (by omega) isSome)
    cases outcome : turn.outcomes calls with
    | error error =>
      rw [tryNode_of_threw notPinned outcome]
      exact goesOn left (calls + 1) _ _ (Nat.le_refl left) (by omega)
    | ok data =>
      cases carries : didContinueOnFail data with
      | false =>
        rw [tryNode_of_succeeds notPinned outcome carries]
        split
        · exact Nat.lt_succ_self calls
        · exact goesOn left (calls + 1) _ _ (Nat.le_refl left) (by omega)
      | true =>
        rw [tryNode_of_carriesError notPinned outcome carries]
        cases runAgain_cases turn left (calls + 1) with
        | inl throws =>
          obtain ⟨count, less, error, _, _, returns⟩ := throws
          rw [returns]
          exact goesOn _ _ _ _ (by omega) (by omega)
        | inr ends =>
          rw [ends.2]
          dsimp only
          split
          · show calls < calls + 1 + left
            omega
          · exact goesOn 0 _ _ _ (by omega) (by omega)

/-! ## From a try on -/

/-- The calls from `first` on are as claimed, and the last one is recorded. -/
structure ProperFrom (turn : NodeTurn Value) (maxTries first : Nat) (tries : Tries Value) : Prop where
  atMost : tries.calls ≤ maxTries
  stops : ∀ call, first ≤ call → call + 1 < tries.calls → ¬Succeeds (turn.outcomes call)
  records : ∀ call, call + 1 = tries.calls → Records turn tries (turn.outcomes call)

variable {tries : Tries Value}

theorem retriesProperly_iff :
    RetriesProperly turn tries ↔ ProperFrom turn (maxTriesOf turn.node) 0 tries := by
  constructor
  · intro properly
    refine ⟨properly.atMost, fun call _ => properly.stops call, fun call isLast => ?_⟩
    have noneBefore : ∀ earlier < call, ¬Succeeds (turn.outcomes earlier) :=
      fun earlier less => properly.stops earlier (by omega)
    by_cases success : Succeeds (turn.outcomes call)
    · exact properly.first call (by omega) success noneBefore
    · refine properly.last call isLast fun earlier less => ?_
      by_cases same : earlier = call
      · exact same ▸ success
      · exact noneBefore earlier (by omega)
  · intro proper
    refine ⟨proper.atMost, fun call => proper.stops call (Nat.zero_le call), fun call less success _ => ?_,
      fun call isLast _ => proper.records call isLast⟩
    refine proper.records call ?_
    by_contra notLast
    exact proper.stops call (Nat.zero_le call) (by omega) success

theorem ProperFrom.earlier_iff {maxTries first later : Nat} (before : first ≤ later)
    (noneSucceeds : ∀ call, first ≤ call → call < later → ¬Succeeds (turn.outcomes call)) :
    ProperFrom turn maxTries first tries ↔ ProperFrom turn maxTries later tries := by
  constructor
  · intro proper
    exact ⟨proper.atMost, fun call isLater => proper.stops call (by omega), proper.records⟩
  · intro proper
    refine ⟨proper.atMost, fun call isLater less => ?_, proper.records⟩
    by_cases isEarlier : call < later
    · exact noneSucceeds call isLater isEarlier
    · exact proper.stops call (by omega) less

/-- What is claimed of the calls from `first` on, after `behind` calls the loop has lost count of. -/
def SettlesFrom (turn : NodeTurn Value) (maxTries first behind : Nat) : Prop :=
  (∃ call, FirstSuccess turn maxTries first call) ∨ behind = 0 ∧ UsesAllTries turn maxTries first

theorem firstSuccess_of_threw {maxTries first call : Nat} (threw : Threw (turn.outcomes first)) :
    FirstSuccess turn maxTries first call ↔ FirstSuccess turn maxTries (first + 1) call := by
  constructor
  · intro success
    have later := success.later
    have different : first ≠ call := fun same => threw.not_succeeds (same ▸ success.succeeds)
    exact ⟨by omega, success.inTime, success.succeeds, success.processed,
      fun earlier isLater => success.noneBefore earlier (by omega),
      fun before isLater => success.afterThrow before (by omega)⟩
  · intro success
    have later := success.later
    refine ⟨by omega, success.inTime, success.succeeds, success.processed, fun earlier isLater isEarlier => ?_,
      fun before isLater isBefore => ?_⟩
    · by_cases same : earlier = first
      · exact same ▸ threw.not_succeeds
      · exact success.noneBefore earlier (by omega) isEarlier
    · by_cases same : before = first
      · exact same ▸ threw
      · exact success.afterThrow before (by omega) isBefore

theorem usesAllTries_of_threw {maxTries first : Nat} (threw : Threw (turn.outcomes first)) :
    UsesAllTries turn maxTries first ↔ UsesAllTries turn maxTries (first + 1) := by
  constructor
  · intro uses
    cases uses with
    | throws all => exact .throws fun call isLater => all call (by omega)
    | continues call later inTime throwBefore carriesError carry processed sameOutput =>
      have different : first ≠ call := fun same => threw.not_carriesError (same ▸ carriesError)
      exact .continues call (by omega) inTime (fun earlier isLater => throwBefore earlier (by omega))
        carriesError carry processed sameOutput
  · intro uses
    cases uses with
    | throws all =>
      refine .throws fun call isLater inTime => ?_
      by_cases same : call = first
      · exact same ▸ threw
      · exact all call (by omega) inTime
    | continues call later inTime throwBefore carriesError carry processed sameOutput =>
      refine .continues call (by omega) inTime (fun earlier isLater isEarlier => ?_) carriesError carry
        processed sameOutput
      by_cases same : earlier = first
      · exact same ▸ threw
      · exact throwBefore earlier (by omega) isEarlier

variable {maxTries behind : Nat}

theorem proper_of_threw (threw : turn.outcomes calls = .error error) (count : left + 1 + calls = maxTries + behind)
    (noData : behind = 0 → nodeSuccessData = none)
    (rest : 0 < left → (ProperFrom turn maxTries (calls + 1)
      (tryNode turn left (calls + 1) nodeSuccessData (some error)) ↔
        SettlesFrom turn maxTries (calls + 1) behind)) :
    ProperFrom turn maxTries calls (tryNode turn left (calls + 1) nodeSuccessData (some error)) ↔
      SettlesFrom turn maxTries calls behind := by
  have isThrow : Threw (turn.outcomes calls) := ⟨error, threw⟩
  have shift : SettlesFrom turn maxTries calls behind ↔ SettlesFrom turn maxTries (calls + 1) behind := by
    simp only [SettlesFrom, firstSuccess_of_threw isThrow, usesAllTries_of_threw isThrow]
  rw [shift]
  cases Nat.eq_zero_or_pos left with
  | inl zero =>
    rw [zero, tryNode_zero]
    constructor
    · intro proper
      have atMost : calls + 1 ≤ maxTries := proper.atMost
      exact .inr ⟨by omega, .throws fun call isLater inTime => by omega⟩
    · intro settles
      have inStep : behind = 0 := by
        cases settles with
        | inl success =>
          obtain ⟨call, success⟩ := success
          have later := success.later
          have inTime := success.inTime
          omega
        | inr uses => exact uses.1
      refine ⟨by show calls + 1 ≤ maxTries; omega, fun call isLater less => ?_, fun call isLast => ?_⟩
      · have less : call + 1 < calls + 1 := less
        omega
      · obtain rfl : call = calls := Nat.succ.inj isLast
        rw [threw]
        exact ⟨rfl, noData inStep⟩
  | inr isSome =>
    rw [← rest isSome]
    refine ProperFrom.earlier_iff (Nat.le_succ calls) fun call isLater isEarlier => ?_
    obtain rfl : call = calls := by omega
    exact isThrow.not_succeeds

theorem proper_of_succeeds (notPinned : turn.pinned = none) (returned : turn.outcomes calls = .ok data)
    (noError : didContinueOnFail data = false) (count : left + 1 + calls = maxTries + behind) :
    ProperFrom turn maxTries calls (tryNode turn (left + 1) calls nodeSuccessData executionError) ↔
      SettlesFrom turn maxTries calls behind := by
  have success : Succeeds (turn.outcomes calls) := ⟨data, returned, noError⟩
  -- no other call is the first that succeeds
  have onlyThis : SettlesFrom turn maxTries calls behind ↔
      calls < maxTries ∧ Processed turn (turn.outcomes calls) := by
    constructor
    · intro settles
      cases settles with
      | inl first =>
        obtain ⟨call, first⟩ := first
        obtain rfl : calls = call := by
          by_contra different
          have later := first.later
          exact first.noneBefore calls (Nat.le_refl calls) (by omega) success
        exact ⟨first.inTime, first.processed⟩
      | inr uses =>
        obtain ⟨inStep, uses⟩ := uses
        cases uses with
        | throws all => exact absurd success (all calls (Nat.le_refl calls) (by omega)).not_succeeds
        | continues call later inTime throwBefore carriesError carry processed sameOutput =>
          by_cases same : calls = call
          · subst same
            exact absurd success carriesError.not_succeeds
          · exact absurd success (throwBefore calls (Nat.le_refl calls) (by omega)).not_succeeds
    · intro holds
      exact .inl ⟨calls, Nat.le_refl calls, holds.1, success, holds.2,
        fun earlier isLater isEarlier => by omega, fun before isLater isBefore => by omega⟩
  rw [onlyThis, tryNode_of_succeeds notPinned returned noError]
  have isProcessed : Processed turn (turn.outcomes calls) ↔ (processOutput turn data).2 = none := by
    rw [returned]
    simp [Processed]
  rw [isProcessed]
  split
  · rename_i processed processes
    rw [processes]
    constructor
    · intro proper
      have atMost : calls + 1 ≤ maxTries := proper.atMost
      exact ⟨by omega, rfl⟩
    · intro holds
      refine ⟨holds.1, fun call isLater less => ?_, fun call isLast => ?_⟩
      · have less : call + 1 < calls + 1 := less
        omega
      · obtain rfl : call = calls := Nat.succ.inj isLast
        rw [returned]
        exact ⟨rfl, processes⟩
  · rename_i processed error processes
    rw [processes]
    constructor
    · intro proper
      exfalso
      cases Nat.eq_zero_or_pos left with
      | inl zero =>
        rw [zero, tryNode_zero] at proper
        have records := proper.records calls rfl
        rw [returned] at records
        cases records.1
      | inr isSome => exact proper.stops calls (Nat.le_refl calls) (lt_calls_tryNode notPinned isSome) success
    · intro holds
      cases holds.2

theorem proper_of_continues (returned : turn.outcomes calls = .ok data) (carries : didContinueOnFail data = true)
    (all : ∀ other < left, ∃ data, turn.outcomes (calls + 1 + other) = .ok data)
    (count : left + 1 + calls = maxTries + behind) (isCalls : tries.calls = calls + 1 + left)
    (isResult : processOutput turn data = (tries.nodeSuccessData, tries.executionError)) :
    ProperFrom turn maxTries calls tries ↔ SettlesFrom turn maxTries calls behind := by
  have carriesError : CarriesError (turn.outcomes calls) := ⟨data, returned, carries⟩
  have allReturn : ∀ call, calls ≤ call → call < tries.calls → ∃ data, turn.outcomes call = .ok data := by
    intro call isLater less
    by_cases same : call = calls
    · exact ⟨data, same ▸ returned⟩
    · have position : call = calls + 1 + (call - calls - 1) := by omega
      rw [position]
      exact all _ (by omega)
  constructor
  · intro proper
    have atMost := proper.atMost
    obtain ⟨last, isLast⟩ := allReturn (maxTries - 1) (by omega) (by omega)
    have records := proper.records (maxTries - 1) (by omega)
    rw [isLast] at records
    refine .inr ⟨by omega, .continues calls (Nat.le_refl calls) (by omega)
      (fun earlier isLater isEarlier => by omega) carriesError (fun between isLater less => ?_)
      ⟨data, returned, ?_⟩ ⟨data, last, returned, isLast, ?_⟩⟩
    · cases outcome_cases (turn.outcomes between) with
      | inl threw =>
        obtain ⟨other, isOther⟩ := allReturn between isLater (by omega)
        exact absurd threw (not_threw_of_ok isOther)
      | inr returns =>
        cases returns with
        | inl success => exact absurd success (proper.stops between isLater (by omega))
        | inr isError => exact isError
    · rw [isResult]
      exact records.1
    · rw [isResult, records.2, records.1]
  · intro settles
    cases settles with
    | inl first =>
      obtain ⟨call, first⟩ := first
      have later := first.later
      have inTime := first.inTime
      have different : calls ≠ call := fun same => carriesError.not_succeeds (same ▸ first.succeeds)
      have threw := first.afterThrow (call - 1) (by omega) (by omega)
      obtain ⟨other, isOther⟩ := allReturn (call - 1) (by omega) (by omega)
      exact absurd threw (not_threw_of_ok isOther)
    | inr uses =>
      obtain ⟨inStep, uses⟩ := uses
      cases uses with
      | throws throws =>
        exact absurd (throws calls (Nat.le_refl calls) (by omega)) (not_threw_of_ok returned)
      | continues call later inTime throwBefore _ carry processed sameOutput =>
        obtain rfl : calls = call := by
          by_contra different
          exact not_threw_of_ok returned (throwBefore calls (Nat.le_refl calls) (by omega))
        obtain ⟨first, last, isFirst, isLast, same⟩ := sameOutput
        obtain ⟨other, isOther, processes⟩ := processed
        obtain rfl : data = first := Except.ok.inj (returned.symm.trans isFirst)
        obtain rfl : data = other := Except.ok.inj (returned.symm.trans isOther)
        have noError : tries.executionError = none := by rw [isResult] at processes; exact processes
        refine ⟨by omega, fun call isLater less => (carry call isLater (by omega)).not_succeeds,
          fun call isEnd => ?_⟩
        obtain rfl : call = maxTries - 1 := by omega
        rw [isLast]
        exact ⟨noError, by rw [← same, isResult, noError]⟩

/-- The node continues on fail, and the further call after `count` others throws: the loop over the
tries goes on behind the calls. -/
theorem settles_of_continues {maxTries behind count : Nat} (returned : turn.outcomes calls = .ok data)
    (carries : didContinueOnFail data = true) (less : count < left)
    (threw : turn.outcomes (calls + 1 + count) = .error error)
    (before : ∀ other < count, ∃ data, turn.outcomes (calls + 1 + other) = .ok data)
    (total : left + 1 + calls = maxTries + behind) : SettlesFrom turn maxTries calls behind ↔
      (∀ call, calls ≤ call → call < calls + 1 + count + 1 → ¬Succeeds (turn.outcomes call)) ∧
        SettlesFrom turn maxTries (calls + 1 + count + 1) (behind + 1) := by
  have carriesError : CarriesError (turn.outcomes calls) := ⟨data, returned, carries⟩
  have isThrow : Threw (turn.outcomes (calls + 1 + count)) := ⟨error, threw⟩
  have returns : ∀ call, calls ≤ call → call < calls + 1 + count → ∃ data, turn.outcomes call = .ok data := by
    intro call isLater isEarlier
    by_cases same : call = calls
    · exact ⟨data, same ▸ returned⟩
    · have position : call = calls + 1 + (call - calls - 1) := by omega
      rw [position]
      exact before _ (by omega)
  constructor
  · intro settles
    cases settles with
    | inl first =>
      obtain ⟨call, first⟩ := first
      have later := first.later
      -- the call before the first success throws
      have isBehind : calls + 1 + count + 1 ≤ call := by
        by_contra isEarly
        by_cases isThrown : call = calls + 1 + count
        · exact isThrow.not_succeeds (isThrown ▸ first.succeeds)
        · have different : calls ≠ call := fun same => carriesError.not_succeeds (same ▸ first.succeeds)
          obtain ⟨other, isOther⟩ := returns (call - 1) (by omega) (by omega)
          exact not_threw_of_ok isOther (first.afterThrow (call - 1) (by omega) (by omega))
      exact ⟨fun earlier isLater isEarlier => first.noneBefore earlier isLater (by omega), .inl ⟨call, isBehind,
        first.inTime, first.succeeds, first.processed, fun earlier isLater => first.noneBefore earlier (by omega),
        fun before isLater => first.afterThrow before (by omega)⟩⟩
    | inr uses =>
      exfalso
      obtain ⟨inStep, uses⟩ := uses
      cases uses with
      | throws throws => exact not_threw_of_ok returned (throws calls (Nat.le_refl calls) (by omega))
      | continues call later inTime throwBefore _ carry processed sameOutput =>
        obtain rfl : calls = call := by
          by_contra different
          exact not_threw_of_ok returned (throwBefore calls (Nat.le_refl calls) (by omega))
        by_cases isLast : calls + 1 + count + 1 = maxTries
        · obtain ⟨_, last, _, isOk, _⟩ := sameOutput
          have position : maxTries - 1 = calls + 1 + count := by omega
          rw [position, threw] at isOk
          cases isOk
        · exact isThrow.not_carriesError (carry (calls + 1 + count) (by omega) (by omega))
  · intro holds
    obtain ⟨noneSucceeds, settles⟩ := holds
    cases settles with
    | inr uses => exact absurd uses.1 (Nat.succ_ne_zero behind)
    | inl first =>
      obtain ⟨call, first⟩ := first
      have later := first.later
      refine .inl ⟨call, by omega, first.inTime, first.succeeds, first.processed,
        fun earlier isLater isEarlier => ?_, fun before isLater isBefore => ?_⟩
      · by_cases isBehind : calls + 1 + count + 1 ≤ earlier
        · exact first.noneBefore earlier isBehind isEarlier
        · exact noneSucceeds earlier isLater (by omega)
      · by_cases isBehind : calls + 1 + count + 1 ≤ before
        · exact first.afterThrow before isBehind isBefore
        · obtain rfl : before = calls + 1 + count := by omega
          exact isThrow

/-- From any try on, the calls are as claimed exactly when their outcomes meet the condition. -/
theorem proper_iff_settles (notPinned : turn.pinned = none) {maxTries tries behind : Nat} (some : 0 < tries)
    (count : tries + calls = maxTries + behind) (noData : behind = 0 → nodeSuccessData = none) :
    ProperFrom turn maxTries calls (tryNode turn tries calls nodeSuccessData executionError) ↔
      SettlesFrom turn maxTries calls behind := by
  induction tries using Nat.strong_induction_on
    generalizing calls behind nodeSuccessData executionError with
  | _ tries ih =>
    obtain ⟨left, rfl⟩ := Nat.exists_eq_succ_of_ne_zero (Nat.ne_of_gt some)
    cases outcome : turn.outcomes calls with
    | error error =>
      rw [tryNode_of_threw notPinned outcome]
      exact proper_of_threw outcome count noData fun isSome =>
        ih left (Nat.lt_succ_self left) isSome (by omega) noData
    | ok data =>
      cases carries : didContinueOnFail data with
      | false => exact proper_of_succeeds notPinned outcome carries count
      | true =>
        rw [tryNode_of_carriesError notPinned outcome carries]
        cases runAgain_cases turn left (calls + 1) with
        | inl throws =>
          obtain ⟨further, less, error, threw, before, returns⟩ := throws
          rw [returns]
          dsimp only
          rw [settles_of_continues outcome carries less threw before count]
          have rest : ProperFrom turn maxTries (calls + 1 + further + 1)
              (tryNode turn (left - further) (calls + 1 + further + 1) data (Option.some error)) ↔
                SettlesFrom turn maxTries (calls + 1 + further + 1) (behind + 1) :=
            ih (left - further) (by omega) (by omega) (by omega)
              (fun never => absurd never (Nat.succ_ne_zero behind))
          rw [← rest]
          have goesOn : calls + 1 + further + 1 <
              (tryNode turn (left - further) (calls + 1 + further + 1) data (Option.some error)).calls :=
            lt_calls_tryNode notPinned (by omega)
          constructor
          · intro proper
            exact ⟨fun call isLater isEarlier => proper.stops call isLater (by omega),
              proper.atMost, fun call isLater => proper.stops call (by omega), proper.records⟩
          · intro holds
            exact (ProperFrom.earlier_iff (by omega) holds.1).mpr holds.2
        | inr ends =>
          obtain ⟨all, returns⟩ := ends
          rw [returns]
          dsimp only
          split
          · rename_i processed processes
            exact proper_of_continues outcome carries all count rfl processes
          · rename_i processed error processes
            rw [tryNode_zero]
            exact proper_of_continues outcome carries all count rfl processes

/-- The tries of a node without pin data are as claimed exactly when the outcomes of the calls meet the
condition. -/
theorem retriesProperly_iff_settles (turn : NodeTurn Value) (notPinned : turn.pinned = none) :
    RetriesProperly turn (runTries turn) ↔ Settles turn (maxTriesOf turn.node) := by
  have isSome : 0 < maxTriesOf turn.node := by
    rw [maxTriesOf]
    split
    · dsimp only
      omega
    · omega
  have count : maxTriesOf turn.node + 0 = maxTriesOf turn.node + 0 := rfl
  rw [retriesProperly_iff, runTries, proper_iff_settles notPinned isSome count fun _ => rfl, SettlesFrom, Settles]
  simp

end

namespace Retried

/-- A node that may be tried three times and gets one item. -/
def node : INode := { id := "1", name := "request", type := "httpRequest", retryOnFail := some true }

def input : NodeItem Nat := { json := (∅ : OrderedMap String Nat).set "id" 1 }

def errorItem : NodeItem Nat := { json := (∅ : OrderedMap String Nat).set "error" 500 }

def turnOf (outcomes : Nat → Except Thrown (NodeOutput (NodeItem Nat))) : NodeTurn Nat where
  node := node
  inputData := onlyMain [.full [input]]
  handleNodeErrorOutput := fun outputs => (outputs, none)
  outcomes := outcomes

def throwsOnce : NodeTurn Nat := turnOf fun call =>
  if call = 0 then .error (.applicationError "timeout") else .ok (some [.full [input]])

/-- The first call continues on fail, the others succeed. -/
def continuesOnce : NodeTurn Nat := turnOf fun call =>
  if call = 0 then .ok (some [.full [errorItem]]) else .ok (some [.full [input]])

theorem retriesProperly_throwsOnce : (runTries throwsOnce).calls = 2 ∧
    RetriesProperly throwsOnce (runTries throwsOnce) := by
  constructor
  · rw [runTries, show maxTriesOf throwsOnce.node = 3 from rfl, tryNode_of_threw rfl rfl,
      tryNode_of_succeeds rfl rfl rfl]
    rfl
  · refine (retriesProperly_iff_settles throwsOnce rfl).mpr (.inl ⟨1, ?_⟩)
    have threw : Threw (throwsOnce.outcomes 0) := ⟨_, rfl⟩
    refine ⟨by omega, by decide, ⟨_, rfl, rfl⟩, ⟨_, rfl, rfl⟩, fun earlier _ less => ?_,
      fun before _ isBefore => ?_⟩
    · obtain rfl : earlier = 0 := by omega
      exact threw.not_succeeds
    · obtain rfl : before = 0 := by omega
      exact threw

/-- The node is called again after the call that succeeds, and its first output is recorded. -/
theorem not_retriesProperly_continuesOnce : ¬RetriesProperly continuesOnce (runTries continuesOnce) := by
  have calls : (runTries continuesOnce).calls = 3 := by
    rw [runTries, show maxTriesOf continuesOnce.node = 3 from rfl, tryNode_of_carriesError rfl rfl rfl]
    rfl
  intro properly
  exact properly.stops 1 (by omega) ⟨_, rfl, rfl⟩

end Retried

end N8n.Core
