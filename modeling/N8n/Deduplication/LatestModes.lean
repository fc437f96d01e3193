import Mathlib.Data.List.Sort
import Mathlib.Order.WithBot
import N8n.Deduplication.DeduplicationHelper
import N8n.Library.Loop

/-! # Deduplication by the latest value

`deduplication-helper.ts` in the modes
`latestIncrementalKey` and `latestDate`, which keep the largest value seen.
Values are compared by the number or the date they stand for; `parse` reads it,
and reads nothing from a value that is not valid.  `sort` is
`Array.prototype.sort` with a comparison that may throw.
-/

namespace N8n.Deduplication

inductive DeduplicationMode where
  | entries
  | latestIncrementalKey
  | latestDate
deriving DecidableEq, Repr

structure DeduplicationError where
  message : String
deriving DecidableEq, Repr

/-- `value.data` of a row: the hashes of the mode `entries`, or the largest value, which may be undefined. -/
inductive StoredData (Item Hash : Type) where
  | entries (data : List Hash)
  | latest (data : Option Item)
deriving DecidableEq, Repr

structure ProcessedData (Item Hash : Type) where
  mode : DeduplicationMode
  data : StoredData Item Hash
deriving DecidableEq, Repr

abbrev Comparison (Item : Type) := Item → Item → Except DeduplicationError Int

variable {Item Hash κ : Type} [DecidableEq Hash] [LinearOrder κ] (createValueHash : Item → Hash)
  (parse : DeduplicationMode → Item → Option κ)
  (sort : Comparison Item → List Item → Except DeduplicationError (List Item))

/-! ## The calls -/

/-- Nothing is read from `undefined`: it is no number, and its text is no date. -/
def compareValues (mode : DeduplicationMode) (value1 value2 : Option Item) : Except DeduplicationError Int :=
  match mode with
  | .latestIncrementalKey =>
    match value1.bind (parse mode), value2.bind (parse mode) with
    | some num1, some num2 => .ok (if num1 = num2 then 0 else if num1 > num2 then 1 else -1)
    | _, _ => .error ⟨"Invalid value. Only numbers are supported in mode \"latestIncrementalKey\""⟩
  | .latestDate =>
    match value1.bind (parse mode), value2.bind (parse mode) with
    -- two `DateTime` objects are never the same object
    | some date1, some date2 => .ok (if date1 > date2 then 1 else -1)
    | _, _ => .error ⟨"Invalid value. Only valid dates are supported in mode \"latestDate\""⟩
  | .entries => .error ⟨"Invalid mode. Only 'latestIncrementalKey' and 'latestDate' are supported."⟩

def sortEntries (items : List Item) (mode : DeduplicationMode) : Except DeduplicationError (List Item) :=
  sort (fun a b => compareValues parse mode (some a) (some b)) items

/-- One turn of the loop of a call with a stored value, with the largest value so far. -/
def recordLatest (mode : DeduplicationMode) (stored : Option Item) (state : IDeduplicationOutput Item × Option Item)
    (item : Item) : Except DeduplicationError (IDeduplicationOutput Item × Option Item) := do
  if (← compareValues parse mode (some item) stored) = 1 then
    let returnData := { state.1 with new := state.1.new ++ [item] }
    if (← compareValues parse mode (some item) state.2) = 1 then
      .ok (returnData, some item)
    else .ok (returnData, state.2)
  else .ok ({ state.1 with processed := state.1.processed ++ [item] }, state.2)

/-- The row after the call, and what the call returns. -/
def handleLatestModes (items : List Item) (mode : DeduplicationMode)
    (processedData : Option (ProcessedData Item Hash)) :
    Except DeduplicationError (ProcessedData Item Hash × IDeduplicationOutput Item) := do
  let incomingItems ← sortEntries parse sort items mode
  match processedData with
  | none => .ok ({ mode, data := .latest incomingItems.getLast? }, { new := items })
  | some processedData =>
    match processedData.data with
    | .entries _ => .ok (processedData, {})
    | .latest stored =>
      let (returnData, largestValue) ← incomingItems.foldlM (recordLatest parse mode stored) ({}, stored)
      .ok ({ processedData with data := .latest largestValue }, returnData)

def validateMode (processedData : Option (ProcessedData Item Hash)) (mode : DeduplicationMode) :
    Except DeduplicationError Unit :=
  match processedData with
  | some processedData =>
    if processedData.mode ≠ mode then
      .error ⟨"Deduplication data was originally saved with an incompatible setting of the ‘Keep Items Where’ " ++
        "parameter. Try ’Clean Database’ operation to reset."⟩
    else .ok ()
  | none => .ok ()

def checkProcessedAndRecord (items : List Item) (options : ICheckProcessedOptions) (mode : DeduplicationMode)
    (processedData : Option (ProcessedData Item Hash)) :
    Except DeduplicationError (ProcessedData Item Hash × IDeduplicationOutput Item) := do
  validateMode processedData mode
  match mode with
  | .latestIncrementalKey | .latestDate => handleLatestModes parse sort items mode processedData
  | .entries =>
    match processedData with
    | none =>
      let (write, returnData) := handleHashedItems createValueHash items options none
      .ok ({ mode, data := .entries write.data }, returnData)
    | some processedData =>
      match processedData.data with
      | .latest _ => .ok (processedData, {})
      | .entries data =>
        let (write, returnData) := handleHashedItems createValueHash items options (some data)
        .ok ({ processedData with data := .entries write.data }, returnData)

def recordCall (options : ICheckProcessedOptions) (mode : DeduplicationMode)
    (processedData : Option (ProcessedData Item Hash)) (items : List Item) :
    Except DeduplicationError (Option (ProcessedData Item Hash)) :=
  (checkProcessedAndRecord createValueHash parse sort items options mode processedData).map fun result => some result.1

/-! ## The watermark -/

/-- What values are compared by. -/
def rank (mode : DeduplicationMode) (item : Item) : WithBot κ := parse mode item

/-- The value is the largest one, `undefined` when there is none. -/
def IsMaximum (mode : DeduplicationMode) (values : List Item) : Option Item → Prop
  | none => values = []
  | some largest => largest ∈ values ∧ ∀ value ∈ values, rank parse mode value ≤ rank parse mode largest

/-- The item is strictly greater than every value. -/
def IsAfter (mode : DeduplicationMode) (values : List Item) (item : Item) : Prop :=
  ∀ value ∈ values, rank parse mode value < rank parse mode item

instance (mode : DeduplicationMode) (values : List Item) (item : Item) : Decidable (IsAfter parse mode values item) :=
  inferInstanceAs (Decidable (∀ value ∈ values, _))

structure CallKept (mode : DeduplicationMode) (seen items : List Item) (next : ProcessedData Item Hash)
    (returnData : IDeduplicationOutput Item) : Prop where
  stored : ∃ largest, next = { mode, data := .latest largest } ∧ IsMaximum parse mode (seen ++ items) largest
  nothingLost : (returnData.new ++ returnData.processed).Perm items
  new : seen ≠ [] → returnData.new.Perm (items.filter fun item => IsAfter parse mode seen item)
  processed : seen ≠ [] → returnData.processed.Perm (items.filter fun item => ¬ IsAfter parse mode seen item)

/-- Every call of the sequence returns, stores the maximum of all values so far and splits its batch by it. -/
def KeepsWatermark (options : ICheckProcessedOptions) (mode : DeduplicationMode) (batches : List (List Item)) : Prop :=
  ∀ before items after, batches = before ++ items :: after →
    ∃ processedData next returnData,
      before.foldlM (recordCall createValueHash parse sort options mode) none = .ok processedData ∧
      checkProcessedAndRecord createValueHash parse sort items options mode processedData = .ok (next, returnData) ∧
      CallKept parse mode before.flatten items next returnData

/-- What is relied on of `Array.prototype.sort`: when no comparison throws and they all follow one order, the result
has the same elements in that order. -/
def SortDocumented : Prop :=
  ∀ (compare : Comparison Item) (items : List Item) (ρ : Type) (_ : LinearOrder ρ) (key : Item → ρ),
    (∀ a ∈ items, ∀ b ∈ items, ∃ order, compare a b = .ok order ∧ (0 < order ↔ key b < key a)) →
    ∃ sorted, sort compare items = .ok sorted ∧ sorted.Perm items ∧ sorted.Pairwise fun a b => key a ≤ key b

def Valid (mode : DeduplicationMode) (item : Item) : Prop := (parse mode item).isSome

def IsLatestMode (mode : DeduplicationMode) : Prop := mode = .latestIncrementalKey ∨ mode = .latestDate

section

variable {createValueHash parse sort} {mode : DeduplicationMode} {items : List Item}

omit [DecidableEq Hash] in
theorem compareValues_valid (latest : IsLatestMode mode) {first second : Item} (validFirst : Valid parse mode first)
    (validSecond : Valid parse mode second) :
    ∃ order, compareValues parse mode (some first) (some second) = .ok order ∧
      (order = 1 ↔ rank parse mode second < rank parse mode first) ∧ (0 < order ↔ order = 1) := by
  obtain ⟨key, isKey⟩ := Option.isSome_iff_exists.mp validFirst
  obtain ⟨key', isKey'⟩ := Option.isSome_iff_exists.mp validSecond
  have below : rank parse mode second < rank parse mode first ↔ key' < key := by
    rw [rank, rank, isKey, isKey']
    exact WithBot.coe_lt_coe
  obtain rfl | rfl := latest
  · refine ⟨if key = key' then 0 else if key > key' then 1 else -1, ?_, ?_⟩
    · simp [compareValues, isKey, isKey']
    · rw [below]
      obtain less | rfl | greater := lt_trichotomy key key'
      · simp [less.ne, less.not_gt]
      · simp
      · simp [greater.ne', greater]
  · refine ⟨if key > key' then 1 else -1, ?_, ?_⟩
    · simp [compareValues, isKey, isKey']
    · rw [below]
      by_cases greater : key' < key <;> simp [greater]

theorem compareValues_undefined (latest : IsLatestMode mode) (item : Item) :
    ∃ error, compareValues parse mode (some item) none = .error error := by
  obtain rfl | rfl := latest
  · exact ⟨_, by simp [compareValues]; rfl⟩
  · exact ⟨_, by simp [compareValues]; rfl⟩

theorem sortEntries_valid (documented : SortDocumented sort) (latest : IsLatestMode mode)
    (valid : ∀ item ∈ items, Valid parse mode item) :
    ∃ sorted, sortEntries parse sort items mode = .ok sorted ∧ sorted.Perm items ∧
      sorted.Pairwise fun a b => rank parse mode a ≤ rank parse mode b := by
  apply documented
  intro a insideA b insideB
  obtain ⟨order, compared, isOne, positive⟩ := compareValues_valid latest (valid a insideA) (valid b insideB)
  exact ⟨order, compared, positive.trans isOne⟩

theorem isMaximum_getLast? {sorted : List Item}
    (inOrder : sorted.Pairwise fun a b => rank parse mode a ≤ rank parse mode b) :
    IsMaximum parse mode sorted sorted.getLast? := by
  cases sorted using List.reverseRecOn with
  | nil => rfl
  | append_singleton front last =>
    rw [List.getLast?_concat]
    refine ⟨by simp, ?_⟩
    intro value member
    obtain before | now := List.mem_append.mp member
    · exact (List.pairwise_append.mp inOrder).2.2 value before last (List.mem_singleton_self last)
    · rw [List.mem_singleton.mp now]

theorem IsMaximum.perm {values values' : List Item} {largest : Option Item} (same : values.Perm values')
    (isMaximum : IsMaximum parse mode values largest) : IsMaximum parse mode values' largest := by
  cases largest with
  | none => exact List.perm_nil.mp (isMaximum ▸ same.symm)
  | some largest => exact ⟨same.mem_iff.mp isMaximum.1, fun value member => isMaximum.2 value (same.mem_iff.mpr member)⟩

theorem isAfter_iff {values : List Item} {largest item : Item}
    (isMaximum : IsMaximum parse mode values (some largest)) :
    IsAfter parse mode values item ↔ rank parse mode largest < rank parse mode item :=
  ⟨fun after => after largest isMaximum.1, fun above value member => (isMaximum.2 value member).trans_lt above⟩

theorem IsMaximum.append {values : List Item} {largest : Item} (isMaximum : IsMaximum parse mode values (some largest))
    (item : Item) :
    IsMaximum parse mode (values ++ [item])
      (some (if rank parse mode largest < rank parse mode item then item else largest)) := by
  split
  next above =>
    refine ⟨by simp, ?_⟩
    intro value member
    obtain before | now := List.mem_append.mp member
    · exact (isMaximum.2 value before).trans above.le
    · rw [List.mem_singleton.mp now]
  next notAbove =>
    refine ⟨List.mem_append_left _ isMaximum.1, ?_⟩
    intro value member
    obtain before | now := List.mem_append.mp member
    · exact isMaximum.2 value before
    · rw [List.mem_singleton.mp now]
      exact le_of_not_gt notAbove

theorem recordLatest_valid (latest : IsLatestMode mode) {stored largest item : Item}
    (validStored : Valid parse mode stored) (validLargest : Valid parse mode largest)
    (validItem : Valid parse mode item)
    (returnData : IDeduplicationOutput Item) :
    recordLatest parse mode (some stored) (returnData, some largest) item = .ok
      (if rank parse mode stored < rank parse mode item then
        ({ returnData with new := returnData.new ++ [item] },
          some (if rank parse mode largest < rank parse mode item then item else largest))
      else ({ returnData with processed := returnData.processed ++ [item] }, some largest)) := by
  obtain ⟨order, compared, isOne, _⟩ := compareValues_valid latest validItem validStored
  obtain ⟨order', compared', isOne', _⟩ := compareValues_valid latest validItem validLargest
  simp only [recordLatest, compared, compared', bind, Except.bind, isOne, isOne']
  split
  · split <;> rfl
  · rfl

/-- The loop splits the items by the stored value, and ends with the largest one of all. -/
theorem foldlM_recordLatest (latest : IsLatestMode mode) {stored : Item} (validStored : Valid parse mode stored)
    (valid : ∀ item ∈ items, Valid parse mode item) {seen : List Item} {largest : Item}
    (returnData : IDeduplicationOutput Item) (validLargest : Valid parse mode largest)
    (isMaximum : IsMaximum parse mode seen (some largest))
    (reached : rank parse mode stored ≤ rank parse mode largest) :
    ∃ largest', items.foldlM (recordLatest parse mode (some stored)) (returnData, some largest) = .ok
        ({ new := returnData.new ++ items.filter fun item => rank parse mode stored < rank parse mode item
           processed := returnData.processed ++ items.filter fun item =>
             ¬ rank parse mode stored < rank parse mode item },
          some largest') ∧
      IsMaximum parse mode (seen ++ items) (some largest') := by
  induction items generalizing seen largest returnData with
  | nil => exact ⟨largest, by simp; rfl, by rwa [List.append_nil]⟩
  | cons item rest ih =>
    have validItem : Valid parse mode item := valid item List.mem_cons_self
    have validRest : ∀ item ∈ rest, Valid parse mode item :=
      fun item member => valid item (List.mem_cons_of_mem _ member)
    have turn := recordLatest_valid latest validStored validLargest validItem returnData
    have maximum := isMaximum.append item
    by_cases isNew : rank parse mode stored < rank parse mode item
    · rw [if_pos isNew] at turn
      have validNext : Valid parse mode
          (if rank parse mode largest < rank parse mode item then item else largest) := by
        split
        · exact validItem
        · exact validLargest
      have reachedNext : rank parse mode stored ≤
          rank parse mode (if rank parse mode largest < rank parse mode item then item else largest) :=
        reached.trans (maximum.2 largest (List.mem_append_left _ isMaximum.1))
      obtain ⟨largest', loop, isLargest⟩ := ih validRest
        { returnData with new := returnData.new ++ [item] } validNext maximum reachedNext
      refine ⟨largest', ?_, by rwa [List.append_cons]⟩
      rw [Loop.foldlM_cons_ok turn, loop]
      simp [isNew]
    · rw [if_neg isNew] at turn
      have notAbove : ¬ rank parse mode largest < rank parse mode item := fun above => isNew (reached.trans_lt above)
      rw [if_neg notAbove] at maximum
      obtain ⟨largest', loop, isLargest⟩ := ih validRest
        { returnData with processed := returnData.processed ++ [item] } validLargest maximum reached
      refine ⟨largest', ?_, by rwa [List.append_cons]⟩
      rw [Loop.foldlM_cons_ok turn, loop]
      simp [isNew, not_lt.mp isNew]

/-! ## One call after another -/

variable {options : ICheckProcessedOptions} {seen : List Item}

omit [DecidableEq Hash] in
theorem validateMode_same (data : StoredData Item Hash) : validateMode (some { mode, data }) mode = .ok () := by
  simp [validateMode]

variable (createValueHash options)

theorem checkProcessedAndRecord_latest (latest : IsLatestMode mode) {processedData : Option (ProcessedData Item Hash)}
    (sameMode : validateMode processedData mode = .ok ()) :
    checkProcessedAndRecord createValueHash parse sort items options mode processedData =
      handleLatestModes parse sort items mode processedData := by
  obtain rfl | rfl := latest
  · simp only [checkProcessedAndRecord, sameMode, bind, Except.bind]
  · simp only [checkProcessedAndRecord, sameMode, bind, Except.bind]

omit [DecidableEq Hash] in
theorem handleLatestModes_stored {sorted : List Item} (isSorted : sortEntries parse sort items mode = .ok sorted)
    (stored : Option Item) :
    handleLatestModes parse sort items mode (some ({ mode, data := .latest stored } : ProcessedData Item Hash)) =
      (sorted.foldlM (recordLatest parse mode stored) ({}, stored)).map fun result =>
        ({ mode, data := .latest result.2 }, result.1) := by
  simp only [handleLatestModes, isSorted, bind, Except.bind]
  cases sorted.foldlM (recordLatest parse mode stored) ({}, stored) <;> rfl

theorem firstCall_kept (documented : SortDocumented sort) (latest : IsLatestMode mode)
    (valid : ∀ item ∈ items, Valid parse mode item) :
    ∃ next returnData, checkProcessedAndRecord createValueHash parse sort items options mode none =
        .ok (next, returnData) ∧ CallKept parse mode [] items next returnData := by
  obtain ⟨sorted, isSorted, same, inOrder⟩ := sortEntries_valid documented latest valid
  rw [checkProcessedAndRecord_latest createValueHash options latest rfl]
  refine ⟨{ mode, data := .latest sorted.getLast? }, { new := items }, ?_, ?_⟩
  · simp only [handleLatestModes, isSorted, bind, Except.bind]
  · have maximum := (isMaximum_getLast? inOrder).perm same
    exact ⟨⟨_, rfl, maximum⟩, by simp, absurd rfl, absurd rfl⟩

theorem laterCall_kept (documented : SortDocumented sort) (latest : IsLatestMode mode)
    (valid : ∀ item ∈ items, Valid parse mode item) {stored : Item} (validStored : Valid parse mode stored)
    (isMaximum : IsMaximum parse mode seen (some stored)) :
    ∃ next returnData, checkProcessedAndRecord createValueHash parse sort items options mode
        (some { mode, data := .latest (some stored) }) = .ok (next, returnData) ∧
      CallKept parse mode seen items next returnData := by
  obtain ⟨sorted, isSorted, same, _⟩ := sortEntries_valid documented latest valid
  have validSorted : ∀ item ∈ sorted, Valid parse mode item := fun item member => valid item (same.mem_iff.mp member)
  obtain ⟨largest, loop, maximum⟩ := foldlM_recordLatest latest validStored validSorted {} validStored isMaximum le_rfl
  have isNew : ∀ item, decide (IsAfter parse mode seen item) =
      decide (rank parse mode stored < rank parse mode item) := fun item => decide_eq_decide.mpr (isAfter_iff isMaximum)
  rw [checkProcessedAndRecord_latest createValueHash options latest (validateMode_same _),
    handleLatestModes_stored isSorted, loop]
  refine ⟨_, _, rfl, ?_⟩
  refine ⟨⟨some largest, rfl, maximum.perm (same.append_left seen)⟩, ?_, fun _ => ?_, fun _ => ?_⟩
  · simp only [List.nil_append, decide_not]
    exact (List.filter_append_perm _ sorted).trans same
  · simp only [List.nil_append, isNew]
    exact same.filter _
  · simp only [List.nil_append, decide_not, isNew]
    exact same.filter _

theorem emptyCall_kept (documented : SortDocumented sort) (latest : IsLatestMode mode) :
    ∃ next returnData, checkProcessedAndRecord createValueHash parse sort [] options mode
        (some { mode, data := .latest none }) = .ok (next, returnData) ∧
      CallKept parse mode [] [] next returnData := by
  have valid : ∀ item ∈ ([] : List Item), Valid parse mode item := fun _ member => absurd member List.not_mem_nil
  obtain ⟨sorted, isSorted, same, _⟩ := sortEntries_valid documented latest valid
  obtain rfl := List.perm_nil.mp same
  rw [checkProcessedAndRecord_latest createValueHash options latest (validateMode_same _),
    handleLatestModes_stored isSorted]
  exact ⟨{ mode, data := .latest none }, {}, rfl, ⟨none, rfl, rfl⟩, by simp, absurd rfl, absurd rfl⟩

theorem call_throws (documented : SortDocumented sort) (latest : IsLatestMode mode)
    (valid : ∀ item ∈ items, Valid parse mode item) (nonempty : items ≠ []) :
    ∃ error, checkProcessedAndRecord createValueHash parse sort items options mode
      (some { mode, data := .latest none }) = .error error := by
  obtain ⟨sorted, isSorted, same, _⟩ := sortEntries_valid documented latest valid
  rw [checkProcessedAndRecord_latest createValueHash options latest (validateMode_same _),
    handleLatestModes_stored isSorted]
  cases sorted with
  | nil => exact absurd (List.nil_perm.mp same) nonempty
  | cons first rest =>
    have undefined : ∃ error, compareValues parse mode (some first) none = .error error :=
      compareValues_undefined latest first
    obtain ⟨error, throws⟩ := undefined
    have turn : recordLatest parse mode none (({} : IDeduplicationOutput Item), none) first = .error error := by
      simp only [recordLatest, throws, bind, Except.bind]
    rw [Loop.foldlM_cons_error turn]
    exact ⟨error, rfl⟩

variable {batches : List (List Item)}

/-- Calls without a first batch that is empty, or without any item. -/
def StartsWithItems (batches : List (List Item)) : Prop := batches.head? = some [] → batches.flatten = []

variable (parse mode) in
/-- The row after the calls: there is none before the first one, and then it has their maximum. -/
def RowAfter (batches : List (List Item)) (processedData : Option (ProcessedData Item Hash)) : Prop :=
  (batches = [] ∧ processedData = none) ∨
  (batches ≠ [] ∧ ∃ largest, processedData = some { mode, data := .latest largest } ∧
    IsMaximum parse mode batches.flatten largest)

omit [DecidableEq Hash] [LinearOrder κ] in
theorem StartsWithItems.of_append {after : List (List Item)} (starts : StartsWithItems (batches ++ after)) :
    StartsWithItems batches := by
  intro isEmpty
  cases batches with
  | nil => rfl
  | cons first rest => exact (List.append_eq_nil_iff.mp (List.flatten_append ▸ starts isEmpty)).1

omit [DecidableEq Hash] [LinearOrder κ] in
theorem StartsWithItems.next (starts : StartsWithItems (batches ++ [items])) (some : batches ≠ [])
    (empty : batches.flatten = []) : items = [] := by
  cases batches with
  | nil => exact absurd rfl some
  | cons first rest =>
    have first_empty : first = [] := (List.append_eq_nil_iff.mp (List.flatten_cons ▸ empty)).1
    have all := starts (congrArg Option.some first_empty)
    rw [List.flatten_append, empty, List.nil_append, List.flatten_singleton] at all
    exact all

theorem RowAfter.call (documented : SortDocumented sort) (latest : IsLatestMode mode)
    (valid : ∀ item ∈ items, Valid parse mode item) (validBefore : ∀ item ∈ batches.flatten, Valid parse mode item)
    {processedData : Option (ProcessedData Item Hash)} (row : RowAfter parse mode batches processedData)
    (starts : StartsWithItems (batches ++ [items])) :
    ∃ next returnData, checkProcessedAndRecord createValueHash parse sort items options mode processedData =
        .ok (next, returnData) ∧ CallKept parse mode batches.flatten items next returnData := by
  obtain ⟨rfl, rfl⟩ | ⟨some, largest, rfl, maximum⟩ := row
  · exact firstCall_kept createValueHash options documented latest valid
  · cases largest with
    | none =>
      have empty : batches.flatten = [] := maximum
      obtain rfl := starts.next some empty
      rw [empty]
      exact emptyCall_kept createValueHash options documented latest
    | some stored =>
      exact laterCall_kept createValueHash options documented latest valid (validBefore stored maximum.1) maximum

theorem run_rowAfter (documented : SortDocumented sort) (latest : IsLatestMode mode)
    (valid : ∀ item ∈ batches.flatten, Valid parse mode item) (starts : StartsWithItems batches) :
    ∃ processedData, batches.foldlM (recordCall createValueHash parse sort options mode) none = .ok processedData ∧
      RowAfter parse mode batches processedData := by
  induction batches using List.reverseRecOn with
  | nil => exact ⟨none, rfl, .inl ⟨rfl, rfl⟩⟩
  | append_singleton before items ih =>
    rw [List.flatten_append, List.flatten_singleton] at valid
    have validBefore : ∀ item ∈ before.flatten, Valid parse mode item := fun item member =>
      valid item (List.mem_append_left _ member)
    have validItems : ∀ item ∈ items, Valid parse mode item := fun item member =>
      valid item (List.mem_append_right _ member)
    obtain ⟨processedData, run, row⟩ := ih validBefore starts.of_append
    obtain ⟨next, returnData, returns, kept⟩ := row.call createValueHash options
      documented latest validItems validBefore starts
    have turn : recordCall createValueHash parse sort options mode processedData items = .ok (some next) := by
      rw [recordCall, returns]
      rfl
    obtain ⟨largest, rfl, maximum⟩ := kept.stored
    refine ⟨_, by rw [Loop.foldlM_append_ok run, Loop.foldlM_cons_ok turn]; rfl, .inr ⟨by simp, largest, rfl, ?_⟩⟩
    rwa [List.flatten_append, List.flatten_singleton]

omit [DecidableEq Hash] [LinearOrder κ] in
theorem exists_first_items (nonempty : batches.flatten ≠ []) :
    ∃ before items after, batches = before ++ items :: after ∧ before.flatten = [] ∧ items ≠ [] := by
  induction batches with
  | nil => exact absurd rfl nonempty
  | cons first rest ih =>
    by_cases empty : first = []
    · subst empty
      obtain ⟨before, items, after, rfl, none, some⟩ := ih nonempty
      exact ⟨[] :: before, items, after, rfl, none, some⟩
    · exact ⟨[], first, rest, rfl, rfl, empty⟩

/-- The latest value is a watermark of all calls exactly when the first batch has an item, or none has. -/
theorem keepsWatermark_iff (documented : SortDocumented sort) (latest : IsLatestMode mode)
    (valid : ∀ items ∈ batches, ∀ item ∈ items, Valid parse mode item) :
    KeepsWatermark createValueHash parse sort options mode batches ↔ StartsWithItems batches := by
  have validAll : ∀ item ∈ batches.flatten, Valid parse mode item := by
    intro item member
    obtain ⟨items, inBatches, inItems⟩ := List.mem_flatten.mp member
    exact valid items inBatches item inItems
  constructor
  · intro keeps isEmpty
    by_contra nonempty
    obtain ⟨before, items, after, rfl, none, some⟩ := exists_first_items nonempty
    have started : before ≠ [] := by
      rintro rfl
      exact some (Option.some.inj isEmpty)
    have validBefore : ∀ item ∈ before.flatten, Valid parse mode item := by simp [none]
    have validItems : ∀ item ∈ items, Valid parse mode item := valid items (by simp)
    obtain ⟨processedData, run, row⟩ := run_rowAfter createValueHash options
      documented latest validBefore (fun _ => none)
    obtain ⟨processedData', next, returnData, run', returns, _⟩ := keeps before items after rfl
    obtain rfl := Except.ok.inj (run.symm.trans run')
    obtain ⟨rfl, _⟩ | ⟨_, largest, rfl, maximum⟩ := row
    · exact started rfl
    · obtain rfl : largest = .none := by
        cases largest with
        | none => rfl
        | some largest => exact absurd (none ▸ maximum.1) List.not_mem_nil
      obtain ⟨error, throws⟩ := call_throws createValueHash options
        documented latest validItems some
      rw [throws] at returns
      cases returns
  · intro starts before items after isSplit
    subst isSplit
    have toHere : StartsWithItems (before ++ [items]) := by
      rw [List.append_cons] at starts
      exact starts.of_append
    have validBefore : ∀ item ∈ before.flatten, Valid parse mode item := fun item member =>
      validAll item (by rw [List.flatten_append]; exact List.mem_append_left _ member)
    obtain ⟨processedData, run, row⟩ := run_rowAfter createValueHash options
      documented latest validBefore toHere.of_append
    obtain ⟨next, returnData, returns, kept⟩ := row.call createValueHash options
      documented latest (valid items (by simp)) validBefore toHere
    exact ⟨processedData, next, returnData, run, returns, kept⟩

end

/-! ## Numbers -/

def notGreater (compare : Comparison Item) (a b : Item) : Bool :=
  match compare a b with
  | .ok order => order ≤ 0
  | .error _ => true

def sortBy (compare : Comparison Item) (items : List Item) : Except DeduplicationError (List Item) :=
  .ok (items.insertionSort fun a b => notGreater compare a b)

theorem sortBy_documented :
    SortDocumented (sortBy : Comparison Item → List Item → Except DeduplicationError (List Item)) := by
  intro compare items ρ _ key follow
  have agree : ∀ a ∈ items, ∀ b ∈ items, notGreater compare a b = true ↔ key a ≤ key b := by
    intro a insideA b insideB
    obtain ⟨order, compared, positive⟩ := follow a insideA b insideB
    simp only [notGreater, compared, decide_eq_true_eq]
    rw [← not_lt, positive, not_lt]
  have sorted := List.map_insertionSort (fun a b => notGreater compare a b = true)
    (fun a b => key a ≤ key b) id items agree
  rw [List.map_id, List.map_id] at sorted
  refine ⟨_, rfl, List.perm_insertionSort _ items, ?_⟩
  rw [sorted]
  exact List.pairwise_insertionSort _ items

theorem keepsWatermark_iff_numbers :
    KeepsWatermark id (fun _ => some) sortBy {} .latestIncrementalKey [[3, 1], [2, 5]] ↔
      StartsWithItems [[3, 1], [2, 5]] :=
  keepsWatermark_iff (κ := Nat) id {} sortBy_documented (.inl rfl) (fun _ _ _ _ => rfl)

theorem not_keepsWatermark_emptyFirst :
    ¬ KeepsWatermark (κ := Nat) id (fun _ => some) sortBy {} .latestIncrementalKey [[], [1]] := by
  intro keeps
  obtain ⟨processedData, next, returnData, run, returns, _⟩ := keeps [[]] [1] [] rfl
  cases run
  cases returns

end N8n.Deduplication
