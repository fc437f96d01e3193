import N8n.Workflow.Interfaces

/-! # Chunks of the input of a task

A task runner may ask for a chunk of the input items only.  The main side strips
the input data, `packages/cli/src/task-runners/task-managers/data-request-response-stripper.ts`,
and the runner side fills in what is missing,
`packages/@n8n/task-runner/src/data-request/data-request-response-reconstruct.ts`.
-/

namespace N8n.TaskRunners

variable {Item : Type}

structure InputDataChunkDefinition where
  startIndex : Nat
  count : Nat
deriving DecidableEq, Repr

structure InputDataRequestParams where
  /-- Whether to include the input data in the response -/
  «include» : Bool
  /-- Optionally request only a specific chunk of data instead of all input data -/
  chunk : Option InputDataChunkDefinition

/-- `items.slice(start, stop)` -/
def slice (items : List Item) (start stop : Nat) : List Item := (items.take stop).drop start

/-- `inputData.main?.[0]`, when there are any items. -/
def mainItems (inputData : ITaskDataConnections Item) : Option (List Item) :=
  (SparseArray.read ((inputData.get? .main).getD []) 0).toOption

def stripChunkedInputData (chunk : InputDataChunkDefinition) (inputData : ITaskDataConnections Item) :
    ITaskDataConnections Item :=
  match mainItems inputData with
  | none => inputData
  | some inputItems =>
    inputData.set .main [.full (slice inputItems chunk.startIndex (chunk.startIndex + chunk.count))]

def stripInputData (input : InputDataRequestParams) (inputData : ITaskDataConnections Item) :
    ITaskDataConnections Item :=
  if ¬ input.«include» then ∅
  else match input.chunk with
    | some chunk => stripChunkedInputData chunk inputData
    | none => inputData

/-- `Array.from({ length })`, which takes a negative length for zero. -/
def missingItems (length : Int) : List (Option Item) := List.replicate length.toNat none

/-- Reconstructs the items of the input; the ones outside the chunk are filled in as `undefined`. -/
def reconstructConnectionInputItems (inputData : ITaskDataConnections Item)
    (chunk : Option InputDataChunkDefinition) : List (Option Item) :=
  let inputItems := (mainItems inputData).getD []
  match chunk with
  | none => inputItems.map some
  | some chunk =>
    missingItems chunk.startIndex ++ inputItems.map some ++
      missingItems (inputItems.length - chunk.startIndex - chunk.count)

/-- An array in which the items of a chunk are at their place, and no others. -/
structure Reconstructs (items : List Item) (chunk : InputDataChunkDefinition) (result : List (Option Item)) :
    Prop where
  length_eq : result.length = items.length
  inside : ∀ index, chunk.startIndex ≤ index → index < chunk.startIndex + chunk.count →
    result[index]?.join = items[index]?
  outside : ∀ index, index < chunk.startIndex ∨ chunk.startIndex + chunk.count ≤ index → result[index]?.join = none

/-! ## What comes back -/

@[simp] theorem length_slice (items : List Item) (start stop : Nat) :
    (slice items start stop).length = min stop items.length - start := by
  simp [slice]

theorem getElem?_slice (items : List Item) (start stop index : Nat) :
    (slice items start stop)[index]? = if start + index < stop then items[start + index]? else none := by
  rw [slice, List.getElem?_drop, List.getElem?_take]

@[simp] theorem mainItems_set (inputData : ITaskDataConnections Item) (items : List Item) :
    mainItems (inputData.set .main [.full items]) = some items := by
  simp [mainItems, SparseArray.read, Slot.toOption]

/-- No more than the requested items are sent, so nothing is ever filled in behind them. -/
theorem reconstruct_strip {inputData : ITaskDataConnections Item} {items : List Item}
    (given : mainItems inputData = some items) (chunk : InputDataChunkDefinition) :
    reconstructConnectionInputItems (stripInputData ⟨true, some chunk⟩ inputData) (some chunk) =
      List.replicate chunk.startIndex none ++
        (slice items chunk.startIndex (chunk.startIndex + chunk.count)).map some := by
  have stripped : mainItems (stripInputData ⟨true, some chunk⟩ inputData) =
      some (slice items chunk.startIndex (chunk.startIndex + chunk.count)) := by
    simp [stripInputData, stripChunkedInputData, given]
  have nothing : ((slice items chunk.startIndex (chunk.startIndex + chunk.count)).length - chunk.startIndex -
      chunk.count : Int).toNat = 0 := by
    rw [length_slice]
    omega
  simp only [reconstructConnectionInputItems, stripped, Option.getD_some, missingItems, nothing, List.replicate_zero,
    List.append_nil, Int.toNat_natCast]

/-- The items of the chunk are always at their place, and there are no others. -/
theorem getElem?_reconstruct_strip {inputData : ITaskDataConnections Item} {items : List Item}
    (given : mainItems inputData = some items) (chunk : InputDataChunkDefinition) (index : Nat) :
    (reconstructConnectionInputItems (stripInputData ⟨true, some chunk⟩ inputData) (some chunk))[index]?.join =
      if chunk.startIndex ≤ index ∧ index < chunk.startIndex + chunk.count then items[index]? else none := by
  rw [reconstruct_strip given]
  by_cases before : index < chunk.startIndex
  · rw [List.getElem?_append_left (by simpa using before), if_neg (by omega)]
    simp [before]
  · rw [List.getElem?_append_right (by simpa using before), List.length_replicate, List.getElem?_map, getElem?_slice,
      Nat.add_sub_cancel' (Nat.le_of_not_lt before)]
    by_cases within : index < chunk.startIndex + chunk.count
    · rw [if_pos within, if_pos ⟨Nat.le_of_not_lt before, within⟩]
      cases items[index]? <;> rfl
    · rw [if_neg within, if_neg fun inside => within inside.2]
      rfl

/-- The array has its length back when the chunk starts in the list and takes all the rest of it. -/
theorem reconstructs_iff {inputData : ITaskDataConnections Item} {items : List Item}
    (given : mainItems inputData = some items) (chunk : InputDataChunkDefinition) :
    Reconstructs items chunk
        (reconstructConnectionInputItems (stripInputData ⟨true, some chunk⟩ inputData) (some chunk)) ↔
      chunk.startIndex ≤ items.length ∧ items.length ≤ chunk.startIndex + chunk.count := by
  have length_eq : (reconstructConnectionInputItems (stripInputData ⟨true, some chunk⟩ inputData)
      (some chunk)).length =
        chunk.startIndex + (min (chunk.startIndex + chunk.count) items.length - chunk.startIndex) := by
    rw [reconstruct_strip given]
    simp
  constructor
  · intro reconstructs
    have same := reconstructs.length_eq
    rw [length_eq] at same
    omega
  · rintro ⟨starts, reaches⟩
    refine ⟨?_, fun index after before => ?_, fun index outside => ?_⟩
    · rw [length_eq]
      omega
    · rw [getElem?_reconstruct_strip given, if_pos ⟨after, before⟩]
    · rw [getElem?_reconstruct_strip given, if_neg (by omega)]

/-! The second and the third of three items, and only the second one. -/

namespace ThreeItems

def inputData : ITaskDataConnections Nat := (∅ : ITaskDataConnections Nat).set .main [.full [10, 11, 12]]

theorem lastTwo_reconstructed :
    Reconstructs [10, 11, 12] ⟨1, 2⟩
      (reconstructConnectionInputItems (stripInputData ⟨true, some ⟨1, 2⟩⟩ inputData) (some ⟨1, 2⟩)) :=
  (reconstructs_iff (mainItems_set ∅ [10, 11, 12]) ⟨1, 2⟩).mpr (by decide)

theorem middle_not_reconstructed :
    ¬ Reconstructs [10, 11, 12] ⟨1, 1⟩
      (reconstructConnectionInputItems (stripInputData ⟨true, some ⟨1, 1⟩⟩ inputData) (some ⟨1, 1⟩)) := by
  intro reconstructs
  have shorter : (reconstructConnectionInputItems (stripInputData ⟨true, some ⟨1, 1⟩⟩ inputData)
      (some ⟨1, 1⟩)).length = 2 := by decide
  have same := reconstructs.length_eq
  rw [shorter] at same
  cases same

end ThreeItems

end N8n.TaskRunners
