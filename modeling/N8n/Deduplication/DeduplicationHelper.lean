import Mathlib.Data.Finset.Card
import N8n.Library.Runs

/-! # Deduplication

`packages/cli/src/deduplication/deduplication-helper.ts` in the mode `entries`,
which keeps a hash of every value seen.  The history is the column `value.data`
in the row of one workflow and context.  `createValueHash` stands for the MD5
digest of a value's text.
-/

namespace N8n.Deduplication

structure ICheckProcessedOptions where
  maxEntries : Option Nat := none
deriving DecidableEq, Repr

structure IDeduplicationOutput (Item : Type) where
  new : List Item := []
  processed : List Item := []
deriving DecidableEq, Repr

/-- What a call does to the row: `insert` fails when there is one, `update` overwrites it. -/
inductive Write (Hash : Type) where
  | insert (data : List Hash)
  | update (data : List Hash)
deriving DecidableEq, Repr

def Write.data {Hash : Type} : Write Hash → List Hash
  | .insert data | .update data => data

/-- `data.splice(0, data.length - maxEntries)`, when the option is neither missing nor zero. -/
def spliceTo {Hash : Type} (options : ICheckProcessedOptions) (data : List Hash) : List Hash :=
  match options.maxEntries with
  | none | some 0 => data
  | some maxEntries => data.drop (data.length - maxEntries)

@[simp] theorem spliceTo_default {Hash : Type} (data : List Hash) : spliceTo {} data = data := rfl

theorem mem_of_mem_spliceTo {Hash : Type} {options : ICheckProcessedOptions} {data : List Hash} {hash : Hash}
    (member : hash ∈ spliceTo options data) : hash ∈ data := by
  unfold spliceTo at member
  split at member
  · exact member
  · exact member
  · exact List.mem_of_mem_drop member

variable {Item Hash : Type} [DecidableEq Hash] (createValueHash : Item → Hash)

/-! ## The calls -/

/-- One turn of the loop.  The set is that of the history before the loop. -/
def recordItem (processedItems : List Hash) (state : IDeduplicationOutput Item × List Hash) (item : Item) :
    IDeduplicationOutput Item × List Hash :=
  if createValueHash item ∈ processedItems then
    ({ state.1 with processed := state.1.processed ++ [item] }, state.2)
  else
    ({ state.1 with new := state.1.new ++ [item] }, state.2 ++ [createValueHash item])

def handleHashedItems (items : List Item) (options : ICheckProcessedOptions) :
    Option (List Hash) → Write Hash × IDeduplicationOutput Item
  | none => (.insert (spliceTo options (items.map createValueHash)), { new := items })
  | some data =>
    let (returnData, data') := items.foldl (recordItem createValueHash data) ({}, data)
    (.update (spliceTo options data'), returnData)

def removeProcessed (items : List Item) (processedData : Option (List Hash)) : Option (List Hash) :=
  processedData.map fun data => (items.map createValueHash).foldl List.erase data

def clearAllProcessedItems (_ : Option (List Hash)) : Option (List Hash) := none

def getProcessedDataCount (processedData : Option (List Hash)) : Nat := (processedData.getD []).length

/-! ## What a call records and returns -/

/-- The items of a batch that the history does not have. -/
def newItems (data : List Hash) (items : List Item) : List Item :=
  items.filter fun item => createValueHash item ∉ data

def processedItems (data : List Hash) (items : List Item) : List Item :=
  items.filter fun item => createValueHash item ∈ data

theorem foldl_recordItem (data : List Hash) (items : List Item) (state : IDeduplicationOutput Item × List Hash) :
    items.foldl (recordItem createValueHash data) state =
      ({ new := state.1.new ++ newItems createValueHash data items
         processed := state.1.processed ++ processedItems createValueHash data items },
        state.2 ++ (newItems createValueHash data items).map createValueHash) := by
  induction items generalizing state with
  | nil => simp [newItems, processedItems]
  | cons item rest ih =>
    rw [List.foldl_cons, ih]
    by_cases known : createValueHash item ∈ data
    · simp [recordItem, newItems, processedItems, known]
    · simp [recordItem, newItems, processedItems, known]

theorem handleHashedItems_output (items : List Item) (options : ICheckProcessedOptions)
    (processedData : Option (List Hash)) :
    (handleHashedItems createValueHash items options processedData).2 =
      { new := newItems createValueHash (processedData.getD []) items
        processed := processedItems createValueHash (processedData.getD []) items } := by
  cases processedData with
  | none => simp [handleHashedItems, newItems, processedItems]
  | some data => simp [handleHashedItems, foldl_recordItem]

theorem handleHashedItems_data (items : List Item) (options : ICheckProcessedOptions)
    (processedData : Option (List Hash)) :
    (handleHashedItems createValueHash items options processedData).1.data =
      spliceTo options (processedData.getD [] ++
        (newItems createValueHash (processedData.getD []) items).map createValueHash) := by
  cases processedData with
  | none => simp [handleHashedItems, Write.data, newItems]
  | some data => simp [handleHashedItems, Write.data, foldl_recordItem]

variable {createValueHash}

theorem mem_newItems {data : List Hash} {items : List Item} {item : Item} :
    item ∈ newItems createValueHash data items ↔ item ∈ items ∧ createValueHash item ∉ data := by
  simp [newItems]

theorem mem_append_newItems {data : List Hash} {items : List Item} {hash : Hash} :
    hash ∈ data ++ (newItems createValueHash data items).map createValueHash ↔
      hash ∈ data ∨ hash ∈ items.map createValueHash := by
  rw [List.mem_append]
  constructor
  · rintro (old | new)
    · exact Or.inl old
    · obtain ⟨item, isNew, rfl⟩ := List.mem_map.mp new
      exact Or.inr (List.mem_map_of_mem (mem_newItems.mp isNew).1)
  · rintro (old | inBatch)
    · exact Or.inl old
    · obtain ⟨item, inside, rfl⟩ := List.mem_map.mp inBatch
      by_cases known : createValueHash item ∈ data
      · exact Or.inl known
      · exact Or.inr (List.mem_map_of_mem (mem_newItems.mpr ⟨inside, known⟩))

/-! ## One call after another -/

inductive Call (Item : Type) where
  | checkProcessedAndRecord (items : List Item)
  | removeProcessed (items : List Item)
  | clearAllProcessedItems
deriving DecidableEq, Repr

variable [DecidableEq Item]

/-- The row, beside the values that occurred in a batch and were not removed or cleared since. -/
structure History (Item Hash : Type) where
  processedData : Option (List Hash)
  remembered : Finset Item

namespace History

def new : History Item Hash := { processedData := none, remembered := ∅ }

def remember (remembered : Finset Item) : Call Item → Finset Item
  | .checkProcessedAndRecord items => remembered ∪ items.toFinset
  | .removeProcessed items => remembered \ items.toFinset
  | .clearAllProcessedItems => ∅

variable (createValueHash) in
def step (history : History Item Hash) (call : Call Item) : History Item Hash where
  processedData := match call with
    | .checkProcessedAndRecord items =>
      some (handleHashedItems createValueHash items {} history.processedData).1.data
    | .removeProcessed items => Deduplication.removeProcessed createValueHash items history.processedData
    | .clearAllProcessedItems => Deduplication.clearAllProcessedItems history.processedData
  remembered := remember history.remembered call

variable (createValueHash) in
/-- A call would split any batch by what is remembered, and the count is that of the remembered values. -/
def RemembersExactly (history : History Item Hash) : Prop :=
  (∀ items, (handleHashedItems createValueHash items {} history.processedData).2 =
    { new := items.filter (· ∉ history.remembered), processed := items.filter (· ∈ history.remembered) }) ∧
  getProcessedDataCount history.processedData = history.remembered.card

/-- No value that is not remembered occurs twice in a batch. -/
def NewOnce (history : History Item Hash) : Call Item → Prop
  | .checkProcessedAndRecord items => (items.filter (· ∉ history.remembered)).Nodup
  | _ => True

variable (createValueHash) in
structure Faithful (history : History Item Hash) : Prop where
  nodup : (history.processedData.getD []).Nodup
  isRemembered : ∀ item, createValueHash item ∈ history.processedData.getD [] ↔ item ∈ history.remembered
  hasValue : ∀ hash ∈ history.processedData.getD [], ∃ item, createValueHash item = hash

omit [DecidableEq Hash] [DecidableEq Item] in
theorem Faithful.new : (new : History Item Hash).Faithful createValueHash := by
  constructor <;> simp [History.new]

variable {history : History Item Hash}

theorem Faithful.newItems (faithful : history.Faithful createValueHash) (items : List Item) :
    newItems createValueHash (history.processedData.getD []) items = items.filter (· ∉ history.remembered) := by
  apply List.filter_congr
  intro item _
  simp [faithful.isRemembered]

theorem Faithful.processedItems (faithful : history.Faithful createValueHash) (items : List Item) :
    processedItems createValueHash (history.processedData.getD []) items =
      items.filter (· ∈ history.remembered) := by
  apply List.filter_congr
  intro item _
  simp [faithful.isRemembered]

omit [DecidableEq Item] in
theorem Faithful.count (faithful : history.Faithful createValueHash) (injective : Function.Injective createValueHash) :
    getProcessedDataCount history.processedData = history.remembered.card := by
  have same : (history.processedData.getD []).toFinset = history.remembered.image createValueHash := by
    ext hash
    rw [List.mem_toFinset, Finset.mem_image]
    constructor
    · intro member
      obtain ⟨item, rfl⟩ := faithful.hasValue hash member
      exact ⟨item, (faithful.isRemembered item).mp member, rfl⟩
    · rintro ⟨item, isRemembered, rfl⟩
      exact (faithful.isRemembered item).mpr isRemembered
  rw [getProcessedDataCount, ← List.toFinset_card_of_nodup faithful.nodup, same,
    Finset.card_image_of_injective _ injective]

theorem Faithful.remembersExactly (faithful : history.Faithful createValueHash)
    (injective : Function.Injective createValueHash) : history.RemembersExactly createValueHash := by
  refine ⟨fun items => ?_, faithful.count injective⟩
  rw [handleHashedItems_output, faithful.newItems, faithful.processedItems]

theorem data_check (history : History Item Hash) (items : List Item) :
    (history.step createValueHash (.checkProcessedAndRecord items)).processedData.getD [] =
      history.processedData.getD [] ++
        (Deduplication.newItems createValueHash (history.processedData.getD []) items).map createValueHash := by
  simp [step, handleHashedItems_data]

theorem Faithful.check (faithful : history.Faithful createValueHash) (injective : Function.Injective createValueHash)
    {items : List Item} (newOnce : history.NewOnce (.checkProcessedAndRecord items)) :
    (history.step createValueHash (.checkProcessedAndRecord items)).Faithful createValueHash where
  nodup := by
    rw [data_check, faithful.newItems, List.nodup_append]
    refine ⟨faithful.nodup, newOnce.map injective, ?_⟩
    rintro hash old _ new rfl
    obtain ⟨item, isNew, rfl⟩ := List.mem_map.mp new
    have notRemembered : item ∉ history.remembered := by simpa using List.of_mem_filter isNew
    exact notRemembered ((faithful.isRemembered item).mp old)
  isRemembered := by
    intro item
    rw [data_check, mem_append_newItems, faithful.isRemembered, List.mem_map_of_injective injective]
    simp [step, remember]
  hasValue := by
    intro hash member
    rw [data_check, mem_append_newItems] at member
    rcases member with old | inBatch
    · exact faithful.hasValue hash old
    · obtain ⟨item, _, same⟩ := List.mem_map.mp inBatch
      exact ⟨item, same⟩

theorem Faithful.remove (faithful : history.Faithful createValueHash) (injective : Function.Injective createValueHash)
    (items : List Item) :
    (history.step createValueHash (.removeProcessed items)).Faithful createValueHash := by
  have data : (history.step createValueHash (.removeProcessed items)).processedData.getD [] =
      (history.processedData.getD []).diff (items.map createValueHash) := by
    cases processedData : history.processedData with
    | none => simp [step, Deduplication.removeProcessed, processedData]
    | some data => simp [step, Deduplication.removeProcessed, processedData, List.diff_eq_foldl]
  have mem : ∀ hash, hash ∈ (history.step createValueHash (.removeProcessed items)).processedData.getD [] ↔
      hash ∈ history.processedData.getD [] ∧ hash ∉ items.map createValueHash := by
    intro hash
    rw [data]
    exact faithful.nodup.mem_sdiff_iff
  constructor
  · rw [data]
    exact faithful.nodup.diff
  · intro item
    rw [mem, faithful.isRemembered, List.mem_map_of_injective injective]
    simp [step, remember]
  · intro hash member
    exact faithful.hasValue hash ((mem hash).mp member).1

theorem Faithful.step {history : History Item Hash} (faithful : history.Faithful createValueHash)
    (injective : Function.Injective createValueHash) {call : Call Item} (newOnce : history.NewOnce call) :
    (history.step createValueHash call).Faithful createValueHash := by
  cases call with
  | checkProcessedAndRecord items => exact faithful.check injective newOnce
  | removeProcessed items => exact faithful.remove injective items
  | clearAllProcessedItems => exact Faithful.new

/-- With a value twice among the new ones the array is longer than the set of values. -/
theorem Faithful.newOnce_of_count (faithful : history.Faithful createValueHash)
    (injective : Function.Injective createValueHash) {call : Call Item}
    (counted : getProcessedDataCount (history.step createValueHash call).processedData =
      (history.step createValueHash call).remembered.card) : history.NewOnce call := by
  cases call with
  | removeProcessed items => trivial
  | clearAllProcessedItems => trivial
  | checkProcessedAndRecord items =>
    have before := faithful.count injective
    rw [getProcessedDataCount] at before
    have disjoint : Disjoint history.remembered (items.filter (· ∉ history.remembered)).toFinset := by
      rw [Finset.disjoint_left]
      intro item isRemembered inFilter
      have notRemembered : item ∉ history.remembered := by
        simpa using List.of_mem_filter (List.mem_toFinset.mp inFilter)
      exact notRemembered isRemembered
    have remembered : (history.step createValueHash (.checkProcessedAndRecord items)).remembered =
        history.remembered ∪ (items.filter (· ∉ history.remembered)).toFinset := by
      ext item
      simp only [History.step, remember, Finset.mem_union, List.mem_toFinset, List.mem_filter, decide_eq_true_eq]
      tauto
    rw [getProcessedDataCount, data_check, faithful.newItems, remembered, Finset.card_union_of_disjoint disjoint,
      List.length_append, List.length_map, before] at counted
    have lengths : (items.filter (· ∉ history.remembered)).toFinset.card =
        (items.filter (· ∉ history.remembered)).length := by omega
    exact Multiset.coe_nodup.mp (Multiset.toFinset_card_eq_card_iff_nodup.mp lengths)

/-- The deduplication remembers exactly what was seen as long as no batch repeats a value that is new. -/
theorem remembersExactly_iff (injective : Function.Injective createValueHash) (calls : List (Call Item)) :
    Runs.Always (step createValueHash) (RemembersExactly createValueHash) new calls ↔
      Runs.Every (step createValueHash) NewOnce new calls :=
  @Runs.always_iff_every_of_lost _ _ (step createValueHash) (fun _ _ => True) NewOnce (Faithful createValueHash)
    (RemembersExactly createValueHash)
    (fun _ faithful => faithful.remembersExactly injective)
    (fun _ _ _ newOnce faithful => faithful.step injective newOnce)
    (fun _ _ _ repeated faithful exactly => repeated (faithful.newOnce_of_count injective exactly.2))
    _ _ Faithful.new (Runs.every_true _ _)

theorem remembersExactly_iff_of_texts :
    Runs.Always (step id) (RemembersExactly id) new
        [Call.checkProcessedAndRecord ["a", "b"], .checkProcessedAndRecord ["a", "a", "c"], .removeProcessed ["a"]] ↔
      Runs.Every (step id) NewOnce (new : History String String)
        [Call.checkProcessedAndRecord ["a", "b"], .checkProcessedAndRecord ["a", "a", "c"], .removeProcessed ["a"]] :=
  remembersExactly_iff Function.injective_id _

/-- A batch with one value twice, after which the value is removed: the next batch finds it processed. -/
theorem not_remembersExactly_of_repeat :
    ¬ ∀ calls : List (Call String),
      Runs.Always (step id) (RemembersExactly id) (new : History String String) calls := by
  intro always
  have final := (always [.checkProcessedAndRecord ["a", "a"], .removeProcessed ["a"]]).final.1 ["a"]
  revert final
  decide

end History

end N8n.Deduplication
