import N8n.Library.Pieces
import N8n.Library.Turns
import N8n.Workflow.WorkflowDataProxy

/-! # The node Loop Over Items

`SplitInBatchesV3` is run again and again: the first run keeps the incoming
items in its node context and emits the first batch on the loop output, every
later run takes what the loop body returned and emits the next batch, until none
is left and everything that was returned leaves on the done output.
-/

namespace N8n.Nodes.SplitInBatches

/-- An item with the fields that the node only passes on, and its pairing. -/
structure INodeExecutionData (δ : Type) where
  data : δ
  pairedItem : Option PairedItem

structure Input (δ : Type) where
  items : List (INodeExecutionData δ)
  sourceData : Option ISourceData

/-- The context of the node, which all its runs of one execution share. -/
structure NodeContext (δ : Type) where
  items : Option (List (INodeExecutionData δ)) := none
  processedItems : List (INodeExecutionData δ) := []
  currentRunIndex : Nat := 0
  maxRunIndex : Nat := 0
  sourceData : Option ISourceData := none
  noItemsLeft : Bool := false
  done : Bool := false

structure Output (δ : Type) where
  done : List (INodeExecutionData δ)
  loop : List (INodeExecutionData δ)

variable {δ : Type}

/-- A number is an item without an input of its own. -/
def addSourceOverwrite (nodeContext : NodeContext δ) (pairedItem : IPairedItemData) : IPairedItemData :=
  { pairedItem with sourceOverwrite := nodeContext.sourceData }

def getPairedItemInformation (nodeContext : NodeContext δ) (item : INodeExecutionData δ) : PairedItem :=
  match item.pairedItem with
  | none => .data { item := 0, sourceOverwrite := nodeContext.sourceData }
  | some (.list pairedItems) => .list (pairedItems.map (addSourceOverwrite nodeContext))
  | some (.data pairedItem) => .data (addSourceOverwrite nodeContext pairedItem)
  | some (.number item) => .data (addSourceOverwrite nodeContext { item })

def firstRun (batchSize : Nat) (input : Input δ) (nodeContext : NodeContext δ) :
    NodeContext δ × List (INodeExecutionData δ) :=
  ({ nodeContext with
      currentRunIndex := 0
      -- `Math.ceil(items.length / batchSize)`
      maxRunIndex := (input.items.length + batchSize - 1) / batchSize
      sourceData := input.sourceData
      items := some (input.items.drop batchSize)
      processedItems := [] },
    input.items.take batchSize)

/-- A run of a node that keeps items from an earlier one. -/
def nextRun (batchSize : Nat) (input : Input δ) (items : List (INodeExecutionData δ)) (nodeContext : NodeContext δ) :
    NodeContext δ × List (INodeExecutionData δ) :=
  let newItems := input.items.mapIdx fun index item =>
    { item with pairedItem := some (.data { sourceOverwrite := input.sourceData, item := index }) }
  ({ nodeContext with
      currentRunIndex := nodeContext.currentRunIndex + 1
      items := some (items.drop batchSize)
      processedItems := nodeContext.processedItems ++ newItems },
    (items.take batchSize).map fun item => { item with pairedItem := some (getPairedItemInformation nodeContext item) })

def takeBatch (batchSize : Nat) (reset : Bool) (input : Input δ) (nodeContext : NodeContext δ) :
    NodeContext δ × List (INodeExecutionData δ) :=
  match nodeContext.items with
  | none => firstRun batchSize input nodeContext
  | some items => if reset then firstRun batchSize input nodeContext else nextRun batchSize input items nodeContext

def execute (batchSize : Nat) (reset : Bool) (input : Input δ) (nodeContext : NodeContext δ) :
    NodeContext δ × Output δ :=
  let taken := takeBatch batchSize reset input nodeContext
  let nodeContext := { taken.1 with noItemsLeft := (taken.1.items.getD []).isEmpty }
  if taken.2.isEmpty then
    ({ nodeContext with done := true }, { done := nodeContext.processedItems, loop := [] })
  else
    ({ nodeContext with done := false }, { done := [], loop := taken.2 })

/-! ## The loop -/

/-- The context and the outputs of the runs so far. -/
structure LoopState (δ : Type) where
  nodeContext : NodeContext δ
  outputs : List (Output δ)

/-- A run of the node with the next input.  A batch on the loop output makes the loop body return another input. -/
def loopTurn (batchSize : Nat) (inputs : Nat → Input δ) (state : LoopState δ) : List (Output δ) ⊕ LoopState δ :=
  let (nodeContext, output) := execute batchSize false (inputs state.outputs.length) state.nodeContext
  if output.loop.isEmpty then .inl (state.outputs ++ [output])
  else .inr { nodeContext, outputs := state.outputs ++ [output] }

def onLoop (batch : List (INodeExecutionData δ)) : Output δ := { done := [], loop := batch }

def onDone (items : List (INodeExecutionData δ)) : Output δ := { done := items, loop := [] }

def dataOf (items : List (INodeExecutionData δ)) : List δ := items.map INodeExecutionData.data

def returned (inputs : Nat → Input δ) (rounds : Nat) : List δ :=
  (List.range rounds).flatMap fun round => dataOf (inputs (round + 1)).items

@[simp] theorem dataOf_append (first second : List (INodeExecutionData δ)) :
    dataOf (first ++ second) = dataOf first ++ dataOf second := List.map_append

theorem dataOf_drop (items : List (INodeExecutionData δ)) (count : Nat) :
    dataOf (items.drop count) = (dataOf items).drop count := List.map_drop

theorem dataOf_flatten (batches : List (List (INodeExecutionData δ))) :
    (batches.map dataOf).flatten = dataOf batches.flatten := List.map_flatten.symm

theorem returned_succ (inputs : Nat → Input δ) (rounds : Nat) :
    returned inputs (rounds + 1) = returned inputs rounds ++ dataOf (inputs (rounds + 1)).items := by
  rw [returned, List.range_succ, List.flatMap_append, List.flatMap_singleton]
  rfl

/-! ## Runs of the node -/

variable {batchSize : Nat} {input : Input δ} {nodeContext : NodeContext δ}

theorem execute_cases (batchSize : Nat) (reset : Bool) (input : Input δ) (nodeContext : NodeContext δ) :
    ((takeBatch batchSize reset input nodeContext).2 = [] ∧
      (execute batchSize reset input nodeContext).2 =
        onDone (takeBatch batchSize reset input nodeContext).1.processedItems) ∨
    ((takeBatch batchSize reset input nodeContext).2 ≠ [] ∧
      (execute batchSize reset input nodeContext).2 = onLoop (takeBatch batchSize reset input nodeContext).2 ∧
      (execute batchSize reset input nodeContext).1.items = (takeBatch batchSize reset input nodeContext).1.items ∧
      (execute batchSize reset input nodeContext).1.processedItems =
        (takeBatch batchSize reset input nodeContext).1.processedItems) := by
  cases batch : (takeBatch batchSize reset input nodeContext).2 with
  | nil => exact .inl ⟨rfl, by simp [execute, batch, onDone]⟩
  | cons item rest => exact .inr ⟨by simp, by simp [execute, batch, onLoop]⟩

theorem loopTurn_cases {inputs : Nat → Input δ} (state : LoopState δ)
    {taken : NodeContext δ × List (INodeExecutionData δ)}
    (isTaken : takeBatch batchSize false (inputs state.outputs.length) state.nodeContext = taken) :
    (taken.2 = [] ∧ loopTurn batchSize inputs state = .inl (state.outputs ++ [onDone taken.1.processedItems])) ∨
    (taken.2 ≠ [] ∧ ∃ nodeContext,
      loopTurn batchSize inputs state = .inr { nodeContext, outputs := state.outputs ++ [onLoop taken.2] } ∧
      nodeContext.items = taken.1.items ∧ nodeContext.processedItems = taken.1.processedItems) := by
  subst isTaken
  rw [loopTurn]
  obtain ⟨none, output⟩ | ⟨some, output, kept⟩ :=
    execute_cases batchSize false (inputs state.outputs.length) state.nodeContext
  · exact .inl ⟨none, by simp [output, onDone]⟩
  · exact .inr ⟨some, _, by simpa [output, onLoop] using some, kept⟩

theorem takeBatch_first (isFirst : nodeContext.items = none) :
    takeBatch batchSize false input nodeContext = firstRun batchSize input nodeContext := by
  rw [takeBatch, isFirst]

theorem takeBatch_next {items : List (INodeExecutionData δ)} (kept : nodeContext.items = some items) :
    takeBatch batchSize false input nodeContext = nextRun batchSize input items nodeContext := by
  rw [takeBatch, kept]
  rfl

theorem dataOf_nextRun (items : List (INodeExecutionData δ)) :
    dataOf (nextRun batchSize input items nodeContext).2 = (dataOf items).take batchSize := by
  rw [nextRun, dataOf, List.map_map, dataOf, ← List.map_take]
  rfl

theorem dataOf_processedItems_nextRun (items : List (INodeExecutionData δ)) :
    dataOf (nextRun batchSize input items nodeContext).1.processedItems =
      dataOf nodeContext.processedItems ++ dataOf input.items := by
  rw [nextRun, dataOf_append]
  congr 1
  rw [List.mapIdx_eq_zipIdx_map, dataOf, List.map_map]
  calc input.items.zipIdx.map (INodeExecutionData.data ∘ Prod.fst)
      = dataOf (input.items.zipIdx.map Prod.fst) := (List.map_map ..).symm
    _ = dataOf input.items := by rw [List.zipIdx_map_fst]

/-! ## Runs of the loop -/

/-- The runs so far emitted the batches and left the items of the context. -/
structure Looping (batchSize : Nat) (inputs : Nat → Input δ) (state : LoopState δ)
    (batches : List (List (INodeExecutionData δ))) (rest : List (INodeExecutionData δ)) : Prop where
  items : state.nodeContext.items = some rest
  outputs : state.outputs = batches.map onLoop
  cut : Pieces.CutInto batchSize (dataOf (inputs 0).items) (batches.map dataOf) (dataOf rest)
  processed : dataOf state.nodeContext.processedItems = returned inputs (batches.length - 1)
  started : batches ≠ []
  nonempty : ∀ batch ∈ batches, batch ≠ []

/-- The loop ended with all batches on the loop output and then, once, what the loop body returned on the done
output. -/
def VisitsEveryItemOnce (batchSize : Nat) (inputs : Nat → Input δ) (outputs : List (Output δ)) : Prop :=
  ∃ (batches : List (List (INodeExecutionData δ))) (processed : List (INodeExecutionData δ)),
    outputs = batches.map onLoop ++ [onDone processed] ∧
    (∀ batch ∈ batches, batch ≠ []) ∧
    dataOf batches.flatten = dataOf (inputs 0).items ∧
    (∀ batch ∈ batches.dropLast, batch.length = batchSize) ∧
    dataOf processed = returned inputs batches.length

section

variable {inputs : Nat → Input δ} {state : LoopState δ} {batches : List (List (INodeExecutionData δ))}
  {rest : List (INodeExecutionData δ)}

theorem loopTurn_first (inputs : Nat → Input δ) (positive : 0 < batchSize) :
    (∃ outputs, loopTurn batchSize inputs { nodeContext := {}, outputs := [] } = .inl outputs ∧
      VisitsEveryItemOnce batchSize inputs outputs) ∨
    ∃ next, loopTurn batchSize inputs { nodeContext := {}, outputs := [] } = .inr next ∧
      Looping batchSize inputs next [(inputs 0).items.take batchSize] ((inputs 0).items.drop batchSize) := by
  have isFirst : takeBatch batchSize false (inputs 0) {} = firstRun batchSize (inputs 0) {} := takeBatch_first rfl
  obtain ⟨none, ends⟩ | ⟨some, nodeContext, goes, items, processed⟩ :=
    loopTurn_cases { nodeContext := {}, outputs := [] } isFirst
  · have empty : (inputs 0).items = [] := (List.take_eq_nil_iff.mp none).resolve_left positive.ne'
    exact .inl ⟨_, ends, [], [], rfl, by simp, by rw [empty]; rfl, by simp, rfl⟩
  · have more : dataOf (inputs 0).items ≠ [] := by
      intro empty
      apply some
      rw [firstRun, List.map_eq_nil_iff.mp empty, List.take_nil]
    have cut := (Pieces.cutInto_nil batchSize (dataOf (inputs 0).items)).next more
    rw [← dataOf_drop, dataOf, ← List.map_take] at cut
    exact .inr ⟨_, goes, items, rfl, cut, by rw [processed]; rfl, List.cons_ne_nil _ _, by simpa [firstRun] using some⟩

/-- A later run ends the loop when no item is left, and otherwise emits the next batch. -/
theorem Looping.turn (positive : 0 < batchSize) (looping : Looping batchSize inputs state batches rest) :
    (∃ outputs, loopTurn batchSize inputs state = .inl outputs ∧ VisitsEveryItemOnce batchSize inputs outputs) ∨
    ∃ next batch, loopTurn batchSize inputs state = .inr next ∧ rest ≠ [] ∧
      Looping batchSize inputs next (batches ++ [batch]) (rest.drop batchSize) := by
  have round : state.outputs.length = batches.length := by rw [looping.outputs, List.length_map]
  have taken : takeBatch batchSize false (inputs state.outputs.length) state.nodeContext =
      nextRun batchSize (inputs batches.length) rest state.nodeContext := by
    rw [round]
    exact takeBatch_next looping.items
  have batchData : dataOf (nextRun batchSize (inputs batches.length) rest state.nodeContext).2 =
      (dataOf rest).take batchSize := dataOf_nextRun rest
  have processedData : dataOf (nextRun batchSize (inputs batches.length) rest state.nodeContext).1.processedItems =
      returned inputs batches.length := by
    obtain ⟨before, isBefore⟩ := Nat.exists_eq_succ_of_ne_zero (List.length_pos_of_ne_nil looping.started).ne'
    rw [dataOf_processedItems_nextRun, looping.processed, isBefore, Nat.succ_sub_one, returned_succ]
  obtain ⟨none, ends⟩ | ⟨some, nodeContext, goes, items, processed⟩ := loopTurn_cases state taken
  · refine .inl ⟨_, ends, batches, _, by rw [looping.outputs], looping.nonempty, ?_, ?_, processedData⟩
    · rw [none] at batchData
      have empty : dataOf rest = [] := (List.take_eq_nil_iff.mp batchData.symm).resolve_left positive.ne'
      have together := looping.cut.together
      rwa [empty, List.append_nil, dataOf_flatten] at together
    · intro batch member
      have member' : dataOf batch ∈ (batches.map dataOf).dropLast := by
        rw [← List.map_dropLast]
        exact List.mem_map_of_mem member
      have full := looping.cut.allButLast _ member'
      rwa [dataOf, List.length_map] at full
  · have more : rest ≠ [] := by
      rintro rfl
      apply some
      rw [nextRun, List.take_nil, List.map_nil]
    have cut := looping.cut.next fun empty => more (List.map_eq_nil_iff.mp empty)
    refine .inr ⟨_, (nextRun batchSize (inputs batches.length) rest state.nodeContext).2, goes, more, items, ?_, ?_, ?_,
      by simp, ?_⟩
    · rw [looping.outputs, List.map_append, List.map_singleton]
    · rwa [List.map_append, List.map_singleton, batchData, dataOf_drop]
    · rw [processed, processedData, List.length_append, List.length_singleton, Nat.add_sub_cancel]
    · intro batch member
      obtain earlier | now := List.mem_append.mp member
      · exact looping.nonempty batch earlier
      · obtain rfl := List.mem_singleton.mp now
        exact some

/-- The loop ends from every state that its runs get to. -/
theorem Looping.ends (positive : 0 < batchSize) (looping : Looping batchSize inputs state batches rest) :
    ∃ turns outputs, Turns.Ends (loopTurn batchSize inputs) turns state outputs ∧
      VisitsEveryItemOnce batchSize inputs outputs := by
  -- the items that are left get fewer with every batch
  generalize isSize : rest.length = size
  induction size using Nat.strong_induction_on generalizing state batches rest with
  | _ size ih =>
    obtain ⟨outputs, stops, visits⟩ | ⟨next, batch, step, more, looping'⟩ := looping.turn positive
    · exact ⟨1, outputs, .now stops, visits⟩
    · have fewer : (rest.drop batchSize).length < size := by
        have left := List.length_pos_of_ne_nil more
        rw [List.length_drop]
        omega
      obtain ⟨turns, outputs, ends, visits⟩ := ih _ fewer looping' rfl
      exact ⟨turns + 1, outputs, .later step ends, visits⟩

end

/-- The loop over any items, with any constant batch size and whatever the loop body returns, visits every item once. -/
theorem loop_visitsEveryItemOnce {batchSize : Nat} (positive : 1 ≤ batchSize) (inputs : Nat → Input δ) :
    ∃ turns outputs, Turns.Ends (loopTurn batchSize inputs) turns { nodeContext := {}, outputs := [] } outputs ∧
      VisitsEveryItemOnce batchSize inputs outputs := by
  obtain ⟨outputs, stops, visits⟩ | ⟨next, step, looping⟩ := loopTurn_first inputs positive
  · exact ⟨1, outputs, .now stops, visits⟩
  · obtain ⟨turns, outputs, ends, visits⟩ := looping.ends positive
    exact ⟨turns + 1, outputs, .later step ends, visits⟩

theorem loop_visitsEveryItemOnce_pairs :
    ∃ turns outputs, Turns.Ends (loopTurn 2 fun _ => { items := [⟨1, none⟩, ⟨2, none⟩, ⟨3, none⟩], sourceData := none })
        turns { nodeContext := {}, outputs := [] } outputs ∧
      VisitsEveryItemOnce 2 (fun _ => { items := [⟨1, none⟩, ⟨2, none⟩, ⟨3, none⟩], sourceData := none }) outputs :=
  loop_visitsEveryItemOnce (by decide) _

end N8n.Nodes.SplitInBatches
