import N8n.Core.RecreateNodeExecutionStack

/-! # What a node left on its outputs

`get-incoming-data.ts` looks through the runs of a node for the first one with
items on an output.  It throws at a run that has data but no list of outputs of
the type it asks for.
-/

namespace N8n.Core

variable {Item : Type}

def itemsOn (connectionType : NodeConnectionType) (outputIndex : Nat) (run : ITaskData Item) : List Item :=
  match run.data.bind (·.get? connectionType) with
  | none => []
  | some outputs => (SparseArray.read outputs outputIndex).getD []

def hasOutputs (connectionType : NodeConnectionType) (run : ITaskData Item) : Bool :=
  match run.data with
  | none => true
  | some data => data.has connectionType

/-- Up to the first run with items on the output, every run with data has outputs of the type. -/
def scannable (connectionType : NodeConnectionType) (outputIndex : Nat) : List (ITaskData Item) → Bool
  | [] => true
  | run :: rest => hasOutputs connectionType run &&
      (!(itemsOn connectionType outputIndex run).isEmpty || scannable connectionType outputIndex rest)

def firstItems (connectionType : NodeConnectionType) (outputIndex : Nat) :
    Nat → List (ITaskData Item) → Option (IncomingData Item)
  | _, [] => none
  | runIndex, run :: rest =>
    match itemsOn connectionType outputIndex run with
    | [] => firstItems connectionType outputIndex (runIndex + 1) rest
    | item :: items => some ⟨item :: items, runIndex⟩

variable {connectionType : NodeConnectionType} {outputIndex : Nat}

theorem getIncomingData_returns {run : ITaskData Item} (outputIndex : Nat)
    (outputs : hasOutputs connectionType run = true) :
    ∃ found, getIncomingData (some run) connectionType outputIndex = .ok found ∧
      found.getD [] = itemsOn connectionType outputIndex run := by
  cases isData : run.data with
  | none => exact ⟨none, by simp [getIncomingData, isData], by simp [itemsOn, isData]⟩
  | some data =>
    have listed : (data.get? connectionType).isSome = true := by
      simpa [hasOutputs, isData, OrderedMap.has] using outputs
    obtain ⟨list, isList⟩ := Option.isSome_iff_exists.mp listed
    refine ⟨_, by simp [getIncomingData, isData, isList]; rfl, ?_⟩
    simp only [itemsOn, isData, Option.bind_some, isList]
    cases SparseArray.read list outputIndex <;> rfl

theorem getIncomingData_ne_rangeError {run : Option (ITaskData Item)} :
    getIncomingData run connectionType outputIndex ≠ .error .rangeError := by
  intro fails
  rw [getIncomingData] at fails
  split at fails
  · cases fails
  · split at fails <;> cases fails

theorem getIncomingData_throws {run : ITaskData Item} (lacks : hasOutputs connectionType run = false) :
    getIncomingData (some run) connectionType outputIndex =
      .error (.typeError "Cannot read properties of undefined (reading 'at')") := by
  cases isData : run.data with
  | none => simp [hasOutputs, isData] at lacks
  | some data =>
    have missing : data.get? connectionType = none := by
      simpa [hasOutputs, isData, OrderedMap.has] using lacks
    simp [getIncomingData, isData, missing]

variable {runs : List (ITaskData Item)}

theorem incomingDataFrom_returns (runIndex : Nat) (reads : scannable connectionType outputIndex runs = true) :
    incomingDataFrom connectionType outputIndex runIndex runs =
      .ok (firstItems connectionType outputIndex runIndex runs) := by
  induction runs generalizing runIndex with
  | nil => rfl
  | cons run rest ih =>
    simp only [scannable, Bool.and_eq_true, Bool.or_eq_true, Bool.not_eq_true', List.isEmpty_eq_false_iff] at reads
    obtain ⟨outputs, onwards⟩ := reads
    obtain ⟨found, returns, items⟩ := getIncomingData_returns outputIndex outputs
    rw [incomingDataFrom, returns, firstItems, ← items]
    rw [← items] at onwards
    cases found with
    | none => exact ih (runIndex + 1) (by simpa using onwards)
    | some list =>
      cases list with
      | nil => exact ih (runIndex + 1) (by simpa using onwards)
      | cons item items => rfl

theorem scannable_of_hasOutputs (outputs : ∀ run ∈ runs, hasOutputs connectionType run = true) :
    scannable connectionType outputIndex runs = true := by
  induction runs with
  | nil => rfl
  | cons run rest ih =>
    rw [scannable, outputs run List.mem_cons_self,
      ih fun other member => outputs other (List.mem_cons_of_mem run member)]
    simp

theorem incomingDataFrom_ne_rangeError (runIndex : Nat) :
    incomingDataFrom connectionType outputIndex runIndex runs ≠ .error .rangeError := by
  induction runs generalizing runIndex with
  | nil => intro fails; cases fails
  | cons run rest ih =>
    intro fails
    rw [incomingDataFrom] at fails
    cases read : getIncomingData (some run) connectionType outputIndex with
    | error thrown =>
      rw [read] at fails
      exact getIncomingData_ne_rangeError (Except.error.inj fails ▸ read)
    | ok found =>
      rw [read] at fails
      match found with
      | none => exact ih (runIndex + 1) fails
      | some [] => exact ih (runIndex + 1) fails
      | some (_ :: _) => cases fails

theorem scannable_of_returns {runIndex : Nat} {found : Option (IncomingData Item)}
    (returns : incomingDataFrom connectionType outputIndex runIndex runs = .ok found) :
    scannable connectionType outputIndex runs = true := by
  induction runs generalizing runIndex with
  | nil => rfl
  | cons run rest ih =>
    cases outputs : hasOutputs connectionType run with
    | false =>
      rw [incomingDataFrom, getIncomingData_throws outputs] at returns
      cases returns
    | true =>
      obtain ⟨read, reads, items⟩ := getIncomingData_returns outputIndex outputs
      rw [incomingDataFrom, reads] at returns
      rw [scannable, outputs, ← items]
      cases read with
      | none => exact ih returns
      | some list =>
        cases list with
        | nil => exact ih returns
        | cons => rfl

theorem firstItems_isSome_iff (runIndex : Nat) :
    (firstItems connectionType outputIndex runIndex runs).isSome = true ↔
      ∃ run ∈ runs, itemsOn connectionType outputIndex run ≠ [] := by
  induction runs generalizing runIndex with
  | nil => simp [firstItems]
  | cons run rest ih =>
    rw [firstItems, List.exists_mem_cons_iff]
    cases itemsOn connectionType outputIndex run with
    | nil => simpa using ih (runIndex + 1)
    | cons => simp

theorem firstItems_spec {runIndex : Nat} {found : IncomingData Item}
    (isFound : firstItems connectionType outputIndex runIndex runs = some found) :
    found.data ≠ [] ∧ ∃ index run, found.runIndex = runIndex + index ∧ runs[index]? = some run ∧
      found.data = itemsOn connectionType outputIndex run := by
  induction runs generalizing runIndex with
  | nil => cases isFound
  | cons run rest ih =>
    rw [firstItems] at isFound
    cases items : itemsOn connectionType outputIndex run with
    | nil =>
      rw [items] at isFound
      obtain ⟨nonempty, index, other, position, member, same⟩ := ih isFound
      exact ⟨nonempty, index + 1, other, by omega, member, same⟩
    | cons item rest =>
      rw [items] at isFound
      cases isFound
      exact ⟨List.cons_ne_nil _ _, 0, run, rfl, rfl, items.symm⟩

/-! ## All runs of a node -/

def runsOf (runData : IRunData Item) (nodeName : String) : List (ITaskData Item) :=
  (runData.get? nodeName).getD []

variable {runData : IRunData Item} {nodeName : String}

theorem getIncomingDataFromAnyRun_returns
    (reads : scannable connectionType outputIndex (runsOf runData nodeName) = true) :
    getIncomingDataFromAnyRun runData nodeName connectionType outputIndex =
      .ok (firstItems connectionType outputIndex 0 (runsOf runData nodeName)) :=
  incomingDataFrom_returns 0 reads

theorem getIncomingDataFromAnyRun_ne_rangeError :
    getIncomingDataFromAnyRun runData nodeName connectionType outputIndex ≠ .error .rangeError :=
  incomingDataFrom_ne_rangeError 0

theorem getIncomingDataFromAnyRun_inv {found : Option (IncomingData Item)}
    (returns : getIncomingDataFromAnyRun runData nodeName connectionType outputIndex = .ok found) :
    scannable connectionType outputIndex (runsOf runData nodeName) = true ∧
      found = firstItems connectionType outputIndex 0 (runsOf runData nodeName) := by
  have reads := scannable_of_returns returns
  rw [getIncomingDataFromAnyRun, incomingDataFrom_returns 0 reads] at returns
  exact ⟨reads, (Except.ok.inj returns).symm⟩

end N8n.Core
