import N8n.Deduplication.DeduplicationHelper

/-! # Calls of several executions at once

`checkProcessedAndRecord` in `deduplication-helper.ts`
reads the row in one query and writes it in another.  Any number of calls are
between the two, and each writes what it has worked out from the row it read.
-/

namespace N8n.Deduplication

inductive Stage (Item : Type) where
  | beforeWrite
  | returned (returnData : IDeduplicationOutput Item)
  | failed
deriving DecidableEq, Repr

/-- A call that has read the row. -/
structure CheckCall (Item Hash : Type) where
  items : List Item
  options : ICheckProcessedOptions
  processedData : Option (List Hash)
  stage : Stage Item := .beforeWrite
deriving DecidableEq, Repr

inductive CheckEvent (Item : Type) where
  | reads (items : List Item) (options : ICheckProcessedOptions)
  | writes (call : Nat)
deriving DecidableEq, Repr

structure SharedHistory (Item Hash : Type) where
  processedData : Option (List Hash)
  calls : List (CheckCall Item Hash)
deriving DecidableEq, Repr

namespace SharedHistory

variable {Item Hash : Type} [DecidableEq Hash] (createValueHash : Item → Hash)

def new : SharedHistory Item Hash := { processedData := none, calls := [] }

def stored (history : SharedHistory Item Hash) : List Hash := history.processedData.getD []

/-- The end of a call.  The primary key of the row lets no second insert through. -/
def write (history : SharedHistory Item Hash) (index : Nat) (call : CheckCall Item Hash) : SharedHistory Item Hash :=
  match handleHashedItems createValueHash call.items call.options call.processedData, history.processedData with
  | (.insert data, returnData), none =>
    { processedData := some data, calls := history.calls.set index { call with stage := .returned returnData } }
  | (.insert _, _), some _ => { history with calls := history.calls.set index { call with stage := .failed } }
  | (.update data, returnData), processedData =>
    { processedData := processedData.map fun _ => data
      calls := history.calls.set index { call with stage := .returned returnData } }

def step (history : SharedHistory Item Hash) : CheckEvent Item → SharedHistory Item Hash
  | .reads items options =>
    { history with calls := history.calls ++ [{ items, options, processedData := history.processedData }] }
  | .writes index =>
    match history.calls[index]? with
    | some call => match call.stage with
      | .beforeWrite => history.write createValueHash index call
      | .returned _ | .failed => history
    | none => history

/-! ## What the calls promise -/

def Returned (history : SharedHistory Item Hash) (index : Nat) (call : CheckCall Item Hash)
    (returnData : IDeduplicationOutput Item) : Prop :=
  history.calls[index]? = some call ∧ call.stage = .returned returnData

def NewInOneCall (history : SharedHistory Item Hash) : Prop :=
  ∀ first second call call' returnData returnData', first ≠ second → history.Returned first call returnData →
    history.Returned second call' returnData' → ∀ item ∈ returnData.new, item ∉ returnData'.new

def AllStored (history : SharedHistory Item Hash) : Prop :=
  ∀ index call returnData, history.Returned index call returnData → ∀ item ∈ call.items,
    createValueHash item ∈ history.stored

def Completed (history : SharedHistory Item Hash) : Prop := ∀ call ∈ history.calls, call.stage ≠ .beforeWrite

/-- No value is new in two calls, and when all calls have completed the values of those that succeeded are stored. -/
def Deduplicated (history : SharedHistory Item Hash) : Prop :=
  history.NewInOneCall ∧ (history.Completed → history.AllStored createValueHash)

/-- No value is new in two calls, and the values of every call are stored from its end on. -/
def AlwaysStored (history : SharedHistory Item Hash) : Prop :=
  history.NewInOneCall ∧ history.AllStored createValueHash

/-- The row has nothing that the call did not read, and `maxEntries` leaves room for all values. -/
def UpToDate (history : SharedHistory Item Hash) (call : CheckCall Item Hash) : Prop :=
  (∀ hash ∈ history.stored, hash ∈ call.processedData.getD []) ∧
    ∀ hash ∈ call.processedData.getD [] ++
        (newItems createValueHash (call.processedData.getD []) call.items).map createValueHash,
      hash ∈ spliceTo call.options (call.processedData.getD [] ++
        (newItems createValueHash (call.processedData.getD []) call.items).map createValueHash)

/-- A call that writes is up to date, or it read no row and there is one now. -/
def NothingLost (history : SharedHistory Item Hash) : CheckEvent Item → Prop
  | .writes index => ∀ call, history.calls[index]? = some call → call.stage = .beforeWrite →
    (call.processedData = none ∧ history.processedData ≠ none) ∨ history.UpToDate createValueHash call
  | _ => True

/-! ## A call between its read and its write -/

structure Consistent (history : SharedHistory Item Hash) : Prop where
  promised : history.AlwaysStored createValueHash
  newOfItems : ∀ index call returnData, history.Returned index call returnData →
    ∀ item ∈ returnData.new, item ∈ call.items
  /-- Nothing is deleted from the row. -/
  readBefore : ∀ call ∈ history.calls, call.stage = .beforeWrite →
    (call.processedData ≠ none → history.processedData ≠ none) ∧
      ∀ hash ∈ call.processedData.getD [], hash ∈ history.stored
  /-- A hash gets into the row through a call that returns its value as new. -/
  recorded : ∀ hash ∈ history.stored, ∃ index call returnData, history.Returned index call returnData ∧
    ∃ item ∈ returnData.new, createValueHash item = hash

variable {createValueHash}

omit [DecidableEq Hash] in
theorem Consistent.new : (new : SharedHistory Item Hash).Consistent createValueHash where
  promised := by constructor <;> simp [NewInOneCall, AllStored, Returned, SharedHistory.new]
  newOfItems := by simp [Returned, SharedHistory.new]
  readBefore := by simp [SharedHistory.new]
  recorded := by simp [stored, SharedHistory.new]

variable {history : SharedHistory Item Hash}

omit [DecidableEq Hash] in
theorem AlwaysStored.deduplicated
    (alwaysStored : history.AlwaysStored createValueHash) : history.Deduplicated createValueHash :=
  ⟨alwaysStored.1, fun _ => alwaysStored.2⟩

/-- What a call writes, when its insert does not fail. -/
def written (createValueHash : Item → Hash) (call : CheckCall Item Hash) : List Hash :=
  (handleHashedItems createValueHash call.items call.options call.processedData).1.data

def output (createValueHash : Item → Hash) (call : CheckCall Item Hash) : IDeduplicationOutput Item :=
  (handleHashedItems createValueHash call.items call.options call.processedData).2

variable {call : CheckCall Item Hash}

theorem mem_output_new {item : Item} :
    item ∈ (output createValueHash call).new ↔
      item ∈ call.items ∧ createValueHash item ∉ call.processedData.getD [] := by
  rw [output, handleHashedItems_output]
  exact mem_newItems

theorem mem_of_mem_written {hash : Hash} (member : hash ∈ written createValueHash call) :
    hash ∈ call.processedData.getD [] ∨ hash ∈ call.items.map createValueHash := by
  rw [written, handleHashedItems_data] at member
  exact mem_append_newItems.mp (mem_of_mem_spliceTo member)

theorem UpToDate.mem_written
    (upToDate : history.UpToDate createValueHash call) {hash : Hash} :
    hash ∈ written createValueHash call ↔
      hash ∈ call.processedData.getD [] ∨ hash ∈ call.items.map createValueHash := by
  constructor
  · exact mem_of_mem_written
  · intro member
    rw [written, handleHashedItems_data]
    exact upToDate.2 hash (mem_append_newItems.mpr member)

theorem write_eq {index : Nat}
    (hasRow : call.processedData ≠ none → history.processedData ≠ none) :
    (call.processedData = none ∧ history.processedData ≠ none ∧ history.write createValueHash index call =
      { history with calls := history.calls.set index { call with stage := .failed } }) ∨
    (¬ (call.processedData = none ∧ history.processedData ≠ none) ∧ history.write createValueHash index call =
      { processedData := some (written createValueHash call)
        calls := history.calls.set index { call with stage := .returned (output createValueHash call) } }) := by
  cases read : call.processedData with
  | none =>
    cases row : history.processedData with
    | none => right; simp [write, written, output, handleHashedItems, read, row, Write.data]
    | some data => left; simp [write, handleHashedItems, read, row]
  | some data =>
    obtain ⟨data', row⟩ := Option.ne_none_iff_exists'.mp (hasRow (by simp [read]))
    right
    simp [write, written, output, handleHashedItems, read, row, Write.data]

omit [DecidableEq Hash] in
/-- A call that returns nothing and writes nothing keeps the history consistent. -/
theorem Consistent.of_returned_iff (consistent : history.Consistent createValueHash) {next : SharedHistory Item Hash}
    (returned_iff : ∀ {index call returnData}, next.Returned index call returnData ↔
      history.Returned index call returnData)
    (sameRow : next.processedData = history.processedData)
    (old : ∀ call ∈ next.calls, call.stage = .beforeWrite →
      call ∈ history.calls ∨ call.processedData = history.processedData) : next.Consistent createValueHash := by
  have sameStored : next.stored = history.stored := by rw [stored, sameRow, stored]
  constructor
  · constructor
    · intro first second call call' returnData returnData' different returned returned'
      exact consistent.promised.1 first second call call' returnData returnData' different (returned_iff.mp returned)
        (returned_iff.mp returned')
    · intro index call returnData returned
      rw [sameStored]
      exact consistent.promised.2 index call returnData (returned_iff.mp returned)
  · intro index call returnData returned
    exact consistent.newOfItems index call returnData (returned_iff.mp returned)
  · intro call member stage
    rw [sameRow, sameStored]
    rcases old call member stage with before | read
    · exact consistent.readBefore call before stage
    · simp [read, stored]
  · intro hash member
    simp only [returned_iff]
    exact consistent.recorded hash (sameStored ▸ member)

section Write

variable {history : SharedHistory Item Hash} {index : Nat} {call : CheckCall Item Hash}
  (isCall : history.calls[index]? = some call)

include isCall

variable {call' : CheckCall Item Hash}

omit [DecidableEq Hash] in
theorem getElem?_set (other : Nat) :
    (history.calls.set index call')[other]? = if index = other then some call' else history.calls[other]? := by
  rw [List.getElem?_set]
  have inside : index < history.calls.length := (List.getElem?_eq_some_iff.mp isCall).1
  simp [inside]

omit [DecidableEq Hash] in
theorem Returned.of_set (beforeWrite : call.stage = .beforeWrite) {processedData : Option (List Hash)}
    {call' : CheckCall Item Hash} {other : Nat} {otherCall : CheckCall Item Hash}
    {returnData : IDeduplicationOutput Item} (returned : history.Returned other otherCall returnData) :
    index ≠ other ∧
      Returned { processedData, calls := history.calls.set index call' } other otherCall returnData := by
  have different : index ≠ other := by
    rintro rfl
    obtain rfl : call = otherCall := Option.some.inj (isCall.symm.trans returned.1)
    have stage := returned.2
    rw [beforeWrite] at stage
    cases stage
  refine ⟨different, ?_, returned.2⟩
  rw [getElem?_set isCall, if_neg different]
  exact returned.1

omit [DecidableEq Hash] in
theorem Returned.cases_set {processedData : Option (List Hash)} {other : Nat}
    {otherCall : CheckCall Item Hash} {returnData : IDeduplicationOutput Item}
    (returned : Returned { processedData, calls := history.calls.set index call' } other otherCall returnData) :
    (index = other ∧ call' = otherCall ∧ call'.stage = .returned returnData) ∨
      (index ≠ other ∧ history.Returned other otherCall returnData) := by
  obtain ⟨isOther, stage⟩ := returned
  rw [getElem?_set isCall] at isOther
  split at isOther
  next same =>
    obtain rfl := Option.some.inj isOther
    exact Or.inl ⟨same, rfl, stage⟩
  next different => exact Or.inr ⟨different, isOther, stage⟩

omit [DecidableEq Hash] isCall in
theorem mem_of_mem_set_beforeWrite (ended : call'.stage ≠ .beforeWrite)
    {other : CheckCall Item Hash} (member : other ∈ history.calls.set index call')
    (stage : other.stage = .beforeWrite) : other ∈ history.calls := by
  rcases List.mem_or_eq_of_mem_set member with old | rfl
  · exact old
  · exact absurd stage ended

omit [DecidableEq Hash] in
theorem Consistent.fails (consistent : history.Consistent createValueHash) (beforeWrite : call.stage = .beforeWrite) :
    Consistent createValueHash
      { history with calls := history.calls.set index { call with stage := .failed } } := by
  refine consistent.of_returned_iff ⟨fun returned => ?_, fun returned => (returned.of_set isCall beforeWrite).2⟩ rfl
    fun other member stage => .inl (mem_of_mem_set_beforeWrite (by simp) member stage)
  rcases returned.cases_set isCall with ⟨_, _, stage⟩ | ⟨_, returned⟩
  · cases stage
  · exact returned

theorem Consistent.writes (consistent : history.Consistent createValueHash)
    (beforeWrite : call.stage = .beforeWrite) (upToDate : history.UpToDate createValueHash call) :
    Consistent createValueHash
      { processedData := some (written createValueHash call)
        calls := history.calls.set index { call with stage := .returned (output createValueHash call) } } := by
  have readBefore := consistent.readBefore call (List.mem_of_getElem? isCall) beforeWrite
  have grows : ∀ hash ∈ history.stored, hash ∈ written createValueHash call := fun hash member =>
    upToDate.mem_written.mpr (Or.inl (upToDate.1 hash member))
  -- what another call has recorded is in the row, and so it was in the row when this call read it
  have notNew : ∀ other otherCall returnData, history.Returned other otherCall returnData →
      ∀ item ∈ returnData.new, item ∉ (output createValueHash call).new := by
    intro other otherCall returnData returned item isNew isNew'
    have isStored := consistent.promised.2 other otherCall returnData returned item
      (consistent.newOfItems other otherCall returnData returned item isNew)
    exact (mem_output_new.mp isNew').2 (upToDate.1 _ isStored)
  constructor
  · constructor
    · intro first second call₁ call₂ returnData₁ returnData₂ different returned₁ returned₂ item isNew₁ isNew₂
      rcases returned₁.cases_set isCall with ⟨same₁, _, stage₁⟩ | ⟨_, old₁⟩ <;>
        rcases returned₂.cases_set isCall with ⟨same₂, _, stage₂⟩ | ⟨_, old₂⟩
      · exact different (same₁.symm.trans same₂)
      · cases stage₁
        exact notNew _ _ _ old₂ item isNew₂ isNew₁
      · cases stage₂
        exact notNew _ _ _ old₁ item isNew₁ isNew₂
      · exact consistent.promised.1 _ _ _ _ _ _ different old₁ old₂ item isNew₁ isNew₂
    · intro other otherCall returnData returned item member
      rcases returned.cases_set isCall with ⟨_, rfl, _⟩ | ⟨_, old⟩
      · exact upToDate.mem_written.mpr (Or.inr (List.mem_map_of_mem member))
      · exact grows _ (consistent.promised.2 _ _ _ old item member)
  · intro other otherCall returnData returned item isNew
    rcases returned.cases_set isCall with ⟨_, rfl, stage⟩ | ⟨_, old⟩
    · cases stage
      exact (mem_output_new.mp isNew).1
    · exact consistent.newOfItems _ _ _ old item isNew
  · intro other member stage
    have readBefore' := consistent.readBefore other (mem_of_mem_set_beforeWrite (by simp) member stage) stage
    exact ⟨by simp, fun hash read => grows hash (readBefore'.2 hash read)⟩
  · intro hash member
    -- a hash is in the row already, or this call returns its value as new
    by_cases old : hash ∈ call.processedData.getD []
    · obtain ⟨other, otherCall, returnData, returned, isNew⟩ := consistent.recorded hash (readBefore.2 hash old)
      exact ⟨other, otherCall, returnData, (returned.of_set isCall beforeWrite).2, isNew⟩
    · obtain ⟨item, inside, rfl⟩ := List.mem_map.mp ((mem_of_mem_written member).resolve_left old)
      refine ⟨index, { call with stage := .returned (output createValueHash call) }, output createValueHash call,
        ⟨?_, rfl⟩, item, mem_output_new.mpr ⟨inside, old⟩, rfl⟩
      rw [getElem?_set isCall, if_pos rfl]

/-- A call that is not up to date loses a value, or it returns as new what another call has recorded since. -/
theorem Consistent.loses (consistent : history.Consistent createValueHash)
    (injective : Function.Injective createValueHash) (beforeWrite : call.stage = .beforeWrite)
    (promised : AlwaysStored createValueHash
      { processedData := some (written createValueHash call)
        calls := history.calls.set index { call with stage := .returned (output createValueHash call) } }) :
    history.UpToDate createValueHash call := by
  have readBefore := consistent.readBefore call (List.mem_of_getElem? isCall) beforeWrite
  have isThis : Returned
      { processedData := some (written createValueHash call)
        calls := history.calls.set index { call with stage := .returned (output createValueHash call) } }
      index { call with stage := .returned (output createValueHash call) } (output createValueHash call) := by
    refine ⟨?_, rfl⟩
    rw [getElem?_set isCall, if_pos rfl]
  have kept : ∀ hash ∈ history.stored, hash ∈ written createValueHash call := by
    intro hash member
    obtain ⟨other, otherCall, returnData, returned, item, isNew, rfl⟩ := consistent.recorded hash member
    exact promised.2 other otherCall returnData (returned.of_set isCall beforeWrite).2 item
      (consistent.newOfItems _ _ _ returned item isNew)
  constructor
  · intro hash member
    by_contra notRead
    obtain ⟨other, otherCall, returnData, returned, item, isNew, rfl⟩ := consistent.recorded hash member
    obtain ⟨item', inside, same⟩ := List.mem_map.mp ((mem_of_mem_written (kept _ member)).resolve_left notRead)
    obtain rfl : item' = item := injective same
    have different := (@Returned.of_set _ _ _ _ _ isCall beforeWrite none call _ _ _ returned).1
    exact promised.1 index other _ _ _ _ different isThis (returned.of_set isCall beforeWrite).2 item'
      (mem_output_new.mpr ⟨inside, notRead⟩) isNew
  · intro hash member
    rw [← handleHashedItems_data createValueHash call.items call.options]
    rcases mem_append_newItems.mp member with read | inBatch
    · exact kept hash (readBefore.2 hash read)
    · obtain ⟨item, inside, rfl⟩ := List.mem_map.mp inBatch
      exact promised.2 index _ _ isThis item inside

end Write

theorem Consistent.reads (consistent : history.Consistent createValueHash)
    (items : List Item) (options : ICheckProcessedOptions) :
    Consistent createValueHash (history.step createValueHash (.reads items options)) := by
  refine consistent.of_returned_iff (fun {other call returnData} => ?_) rfl fun call member stage => ?_
  · simp only [step, Returned, List.getElem?_append]
    split
    · exact Iff.rfl
    next beyond =>
      constructor
      · rintro ⟨isCall, stage⟩
        obtain rfl := List.mem_singleton.mp (List.mem_of_getElem? isCall)
        cases stage
      · rintro ⟨isCall, _⟩
        exact absurd (List.getElem?_eq_some_iff.mp isCall).1 beyond
  · refine (List.mem_append.mp member).imp_right fun isNew => ?_
    rw [List.mem_singleton.mp isNew]

/-! ## Every run -/

theorem Consistent.step {history : SharedHistory Item Hash} {event : CheckEvent Item}
    (nothingLost : history.NothingLost createValueHash event) (consistent : history.Consistent createValueHash) :
    (history.step createValueHash event).Consistent createValueHash := by
  cases event with
  | reads items options => exact consistent.reads items options
  | writes index =>
    simp only [SharedHistory.step]
    split
    next call isCall =>
      split
      next beforeWrite =>
        have hasRow := (consistent.readBefore call (List.mem_of_getElem? isCall) beforeWrite).1
        rcases write_eq hasRow with ⟨_, _, write⟩ | ⟨succeeds, write⟩
        · rw [write]
          exact consistent.fails isCall beforeWrite
        · rw [write]
          exact consistent.writes isCall beforeWrite ((nothingLost call isCall beforeWrite).resolve_left succeeds)
      all_goals exact consistent
    next => exact consistent

theorem Consistent.nothingLost {event : CheckEvent Item}
    (consistent : history.Consistent createValueHash) (injective : Function.Injective createValueHash)
    (promised : (history.step createValueHash event).AlwaysStored createValueHash) :
    history.NothingLost createValueHash event := by
  cases event with
  | reads items options => trivial
  | writes index =>
    intro call isCall beforeWrite
    simp only [SharedHistory.step, isCall, beforeWrite] at promised
    have hasRow := (consistent.readBefore call (List.mem_of_getElem? isCall) beforeWrite).1
    rcases write_eq hasRow with ⟨read, row, _⟩ | ⟨_, write⟩
    · exact Or.inl ⟨read, row⟩
    · rw [write] at promised
      exact Or.inr (consistent.loses isCall injective beforeWrite promised)

/-- Calls at once deduplicate like calls in turn when each writes a history that it has read in full.  With a hash
that tells values apart, these are the runs in which the values of a call are never lost. -/
theorem deduplicated_of_nothingLost (createValueHash : Item → Hash) (events : List (CheckEvent Item)) :
    (Runs.Every (step createValueHash) (NothingLost createValueHash) new events →
      Runs.Always (step createValueHash) (Deduplicated createValueHash) new events) ∧
    (Function.Injective createValueHash →
      (Runs.Always (step createValueHash) (AlwaysStored createValueHash) new events ↔
        Runs.Every (step createValueHash) (NothingLost createValueHash) new events)) := by
  constructor
  · intro every
    have always := Runs.always_of_invariant (fun _ _ nothingLost consistent => consistent.step nothingLost)
      Consistent.new every
    exact always.imp fun _ consistent => consistent.promised.deduplicated
  · intro injective
    exact @Runs.always_iff_every_of_lost _ _ (SharedHistory.step createValueHash) (fun _ _ => True)
      (NothingLost createValueHash) (Consistent createValueHash) (AlwaysStored createValueHash)
      (fun _ consistent => consistent.promised)
      (fun _ _ _ nothingLost consistent => consistent.step nothingLost)
      (fun _ _ _ lost consistent promised => lost (consistent.nothingLost injective promised))
      _ _ Consistent.new (Runs.every_true _ _)

/-- Two calls read the history before either has written its value. -/
theorem not_deduplicated_of_stale_read :
    ¬ ∀ events : List (CheckEvent String),
      Runs.Always (step id) (Deduplicated id) (new : SharedHistory String String) events := by
  intro always
  have final := (always [.reads ["a"] {}, .writes 0, .reads ["b"] {}, .reads ["b"] {}, .writes 1, .writes 2]).final.1
    1 2 _ _ _ _ (by decide) ⟨rfl, rfl⟩ ⟨rfl, rfl⟩ "b"
  revert final
  decide

end SharedHistory

end N8n.Deduplication
