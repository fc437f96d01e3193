import N8n.Core.RetryOnFail
import N8n.Workflow.GetPairedItem

/-! # The error output of a node

`WorkflowExecute.handleNodeErrorOutput` of
`workflow-execute.ts`.  It moves the items
that are marked as errors from the regular outputs of a node to its last one,
and adds to their `json` what the input items have that they are paired with.
The outputs are values: no two of them share an array or an item.
-/

namespace N8n.Core

variable {Value : Type}

/-- An item with its `error`, where `undefined` is missing. -/
structure OutputItem (Value : Type) extends INodeExecutionData Value where
  error : Option Value := none
deriving DecidableEq

/-- An array of items may hold `undefined`. -/
abbrev ItemOutputs (Value : Type) := List (Slot (List (Option (OutputItem Value))))

/-- Why a call does not return: it throws, or the walk over the paired items has not ended yet. -/
inductive NoReturn where
  | throws (error : PairedItemError)
  | running
deriving DecidableEq

def getNodeOutputs (outputs : List NodeConnectionType) (node : INode) : List NodeConnectionType :=
  if node.onError = some .continueErrorOutput then outputs ++ [.main] else outputs

def mainOutputTypes (outputs : List NodeConnectionType) (node : INode) : List NodeConnectionType :=
  (getNodeOutputs outputs node).filter (· = .main)

/-! ## One item -/

section

variable (isTruthy : Value → Bool)

def errorData (item : OutputItem Value) : Option Value :=
  let error := item.json.get? "error"
  if item.error.any isTruthy then item.error
  else if error.any isTruthy ∧ item.json.size = 1 then error
  else if error.any isTruthy ∧ (item.json.get? "message").any isTruthy ∧ item.json.size = 2 then error
  else none

def isMarked (item : OutputItem Value) : Bool := (errorData isTruthy item).isSome

/-- `item.error = undefined`, if it was the error that the item is marked with. -/
def withoutError (item : OutputItem Value) : OutputItem Value :=
  if item.error.any isTruthy then { item with error := none } else item

/-- The first of the paired items; a number does not count. -/
def pairedItemData (item : OutputItem Value) : Option IPairedItemData :=
  match item.pairedItem with
  | none | some (.number _) => none
  | some (.data pairedItem) => some pairedItem
  | some (.list pairedItems) => pairedItems.head?

/-- `source.main[input || 0]` -/
def sourceOfInput (source : ITaskDataConnectionsSource) (link : IPairedItemData) : Option ISourceData :=
  (source.get? .main).bind fun main =>
    let input := link.input.getD 0
    if input < 0 then none else (SparseArray.read main input.toNat).toOption

/-- What the call has of the run: where the data of the node comes from, and the proxy that finds paired items.  The
items of the run are objects, and so `=` is `===`. -/
structure ErrorOutputContext (Item Value : Type) where
  source : Option ITaskDataConnectionsSource
  proxy : WorkflowDataProxy Item
  json : Item → OrderedMap String Value

variable {Item : Type} [DecidableEq Item] (context : ErrorOutputContext Item Value) (fuel : Nat)

/-- An item for the error output.  `$getPairedItem` does not return `null`; where it returns `undefined`, reading
`json` throws. -/
def errorItem (item : OutputItem Value) : Except NoReturn (OutputItem Value) :=
  match context.source, pairedItemData item with
  | some source, some link =>
    match sourceOfInput source link with
    | none => .error (.throws .typeError)
    | some sourceData =>
      match context.proxy.getPairedItem fuel sourceData.previousNode (some sourceData) link with
      | none => .error .running
      | some (.error error) => .error (.throws error)
      | some (.ok none) => .error (.throws .typeError)
      | some (.ok (some constPairedItem)) => .ok { item with json := (context.json constPairedItem).spread item.json }
  -- the source data or the paired item is missing
  | none, _ | _, none => .ok item

/-! ## All outputs -/

/-- One turn of the loop over the items of an output, which are shifted from its array one by one.  The state is
`successItems` and `errorItems`. -/
def routeItem (state : List (OutputItem Value) × List (OutputItem Value)) (item : Option (OutputItem Value)) :
    Except NoReturn (List (OutputItem Value) × List (OutputItem Value)) :=
  match item with
  | none => .ok state
  | some item =>
    if isMarked isTruthy item then do
      let routed ← errorItem context fuel (withoutError isTruthy item)
      .ok (state.1, state.2 ++ [routed])
    else .ok (state.1 ++ [item], state.2)

/-- One turn of the loop over the outputs. -/
def routeOutput (nodeSuccessData : ItemOutputs Value) (errorItems : List (OutputItem Value)) (outputIndex : Nat) :
    Except NoReturn (ItemOutputs Value × List (OutputItem Value)) := do
  let items := (SparseArray.read nodeSuccessData outputIndex).getD []
  let (successItems, errorItems) ← items.foldlM (routeItem isTruthy context fuel) ([], errorItems)
  .ok (SparseArray.write nodeSuccessData outputIndex (.full (successItems.map some)), errorItems)

/-- All outputs but the error output, which would not contain data by default, and then that one.  `outputs` are those
of the node type; a node that continues with its error output has at least that one. -/
def handleNodeErrorOutput (outputs : List NodeConnectionType) (node : INode) (nodeSuccessData : ItemOutputs Value) :
    Except NoReturn (ItemOutputs Value) := do
  let regularOutputs := (mainOutputTypes outputs node).length - 1
  let (nodeSuccessData, errorItems) ← (List.range regularOutputs).foldlM
    (fun (nodeSuccessData, errorItems) outputIndex =>
      routeOutput isTruthy context fuel nodeSuccessData errorItems outputIndex) (nodeSuccessData, [])
  .ok (SparseArray.write nodeSuccessData regularOutputs (.full (errorItems.map some)))

/-! ## What becomes of the items -/

def itemsAt (nodeSuccessData : ItemOutputs Value) (index : Nat) : List (OutputItem Value) :=
  ((SparseArray.read nodeSuccessData index).getD []).reduceOption

/-- The items of the regular outputs that are marked as errors, in their order. -/
def markedItems (nodeSuccessData : ItemOutputs Value) (regularOutputs : Nat) : List (OutputItem Value) :=
  (List.range regularOutputs).flatMap fun index => (itemsAt nodeSuccessData index).filter (isMarked isTruthy)

/-- The link of an item leads to an input item: an item of the node that the input of the link came from. -/
def PairedWith (item : OutputItem Value) (inputItem : Item) : Prop :=
  ∃ source link sourceData, context.source = some source ∧ pairedItemData item = some link ∧
    sourceOfInput source link = some sourceData ∧
    context.proxy.Leads sourceData.previousNode (link.sourceOverwrite <|> some sourceData) link inputItem

/-- An item of the error output keeps its own keys, and what is added is from one input item that it is paired
with. -/
structure CarriedOver (item routed : OutputItem Value) : Prop where
  pairedItem : routed.pairedItem = item.pairedItem
  ownKeys : ∀ key value, item.json.get? key = some value → routed.json.get? key = some value
  addedKeys : (∀ key, item.json.get? key = none → routed.json.get? key = none) ∨
    ∃ inputItem, PairedWith context item inputItem ∧ ∀ key value, routed.json.get? key = some value →
      item.json.get? key = none → (context.json inputItem).get? key = some value

/-- After some outputs: they hold what stays, the others are as they were, and the error items are those so far. -/
structure RoutedSoFar (before : ItemOutputs Value) (done : Nat)
    (state : ItemOutputs Value × List (OutputItem Value)) : Prop where
  routed : ∀ index < done, itemsAt state.1 index = (itemsAt before index).filter fun item => !isMarked isTruthy item
  untouched : ∀ index ≥ done, itemsAt state.1 index = itemsAt before index
  errors : List.Forall₂ (CarriedOver context) (markedItems isTruthy before done) state.2

variable {isTruthy context fuel}

/-! ## One item -/

omit [DecidableEq Item] in
@[simp] theorem json_withoutError (item : OutputItem Value) : (withoutError isTruthy item).json = item.json := by
  unfold withoutError
  split <;> rfl

@[simp] theorem pairedItem_withoutError (item : OutputItem Value) :
    (withoutError isTruthy item).pairedItem = item.pairedItem := by
  unfold withoutError
  split <;> rfl

omit [DecidableEq Item] in
theorem pairedWith_withoutError {item : OutputItem Value} {inputItem : Item} :
    PairedWith context (withoutError isTruthy item) inputItem ↔ PairedWith context item inputItem := by
  simp only [PairedWith, pairedItemData, pairedItem_withoutError]

theorem leads_of_getPairedItem {destinationNodeName : String} {incomingSourceData : Option ISourceData}
    {link : IPairedItemData} {found : Item}
    (returns : context.proxy.getPairedItem fuel destinationNodeName incomingSourceData link = some (.ok (some found))) :
    context.proxy.Leads destinationNodeName (link.sourceOverwrite <|> incomingSourceData) link found :=
  (WorkflowDataProxy.ends_of_findItem returns).leads rfl

theorem errorItem_carriedOver {item routed : OutputItem Value} (returns : errorItem context fuel item = .ok routed) :
    CarriedOver context item routed := by
  unfold errorItem at returns
  split at returns
  next source link hasSource hasLink =>
    split at returns
    · cases returns
    next sourceData isSource =>
      split at returns
      · cases returns
      · cases returns
      · cases returns
      next constPairedItem found =>
        cases returns
        refine ⟨rfl, fun key value own => ?_, .inr ⟨constPairedItem, ?_, fun key value present absent => ?_⟩⟩
        · rw [OrderedMap.get?_spread, own]
          rfl
        · exact ⟨source, link, sourceData, hasSource, hasLink, isSource, leads_of_getPairedItem found⟩
        · rwa [OrderedMap.get?_spread, absent] at present
  all_goals
    cases returns
    exact ⟨rfl, fun _ _ own => own, .inl fun _ absent => absent⟩

omit [DecidableEq Item] in
theorem CarriedOver.of_withoutError {item routed : OutputItem Value}
    (carried : CarriedOver context (withoutError isTruthy item) routed) : CarriedOver context item routed := by
  obtain ⟨pairedItem, ownKeys, addedKeys⟩ := carried
  rw [pairedItem_withoutError] at pairedItem
  simp only [json_withoutError, pairedWith_withoutError] at ownKeys addedKeys
  exact ⟨pairedItem, ownKeys, addedKeys⟩

/-! ## One output -/

theorem foldlM_routeItem {items : List (Option (OutputItem Value))}
    {state final : List (OutputItem Value) × List (OutputItem Value)}
    (returns : items.foldlM (routeItem isTruthy context fuel) state = .ok final) :
    final.1 = state.1 ++ items.reduceOption.filter (fun item => !isMarked isTruthy item) ∧
      ∃ routed, final.2 = state.2 ++ routed ∧
        List.Forall₂ (CarriedOver context) (items.reduceOption.filter (isMarked isTruthy)) routed := by
  induction items generalizing state with
  | nil =>
    cases returns
    exact ⟨(List.append_nil _).symm, [], (List.append_nil _).symm, .nil⟩
  | cons item rest ih =>
    obtain ⟨next, turn, later⟩ := Loop.foldlM_cons_inv returns
    obtain ⟨stayed, routed, moved, carried⟩ := ih later
    cases item with
    | none =>
      cases turn
      rw [List.reduceOption_cons_of_none]
      exact ⟨stayed, routed, moved, carried⟩
    | some item =>
      rw [List.reduceOption_cons_of_some, List.filter_cons, List.filter_cons]
      simp only [routeItem] at turn
      split at turn
      next marked =>
        obtain ⟨first, isFirst, turn⟩ := Loop.bind_inv turn
        cases turn
        simp only [marked, Bool.not_true, Bool.false_eq_true, if_false, if_true]
        refine ⟨stayed, first :: routed, ?_, .cons (errorItem_carriedOver isFirst).of_withoutError carried⟩
        rw [moved, List.append_assoc]
        rfl
      next unmarked =>
        cases turn
        simp only [unmarked, Bool.not_false, Bool.false_eq_true, if_false, if_true]
        refine ⟨?_, routed, moved, carried⟩
        rw [stayed, List.append_assoc]
        rfl

/-! ## All outputs -/

theorem reduceOption_map_some {α : Type} (items : List α) : (items.map some).reduceOption = items := by
  simp [List.reduceOption, List.filterMap_map]

theorem itemsAt_write (nodeSuccessData : ItemOutputs Value) (index other : Nat) (items : List (OutputItem Value)) :
    itemsAt (SparseArray.write nodeSuccessData index (.full (items.map some))) other =
      if other = index then items else itemsAt nodeSuccessData other := by
  unfold itemsAt
  rw [SparseArray.read_write]
  split
  · exact reduceOption_map_some items
  · rfl

theorem RoutedSoFar.turn {before : ItemOutputs Value} {done : Nat}
    {state next : ItemOutputs Value × List (OutputItem Value)} (soFar : RoutedSoFar isTruthy context before done state)
    (returns : routeOutput isTruthy context fuel state.1 state.2 done = .ok next) :
    RoutedSoFar isTruthy context before (done + 1) next := by
  obtain ⟨⟨successItems, errorItems⟩, items, written⟩ := Loop.bind_inv returns
  cases written
  obtain ⟨stayed, routed, moved, carried⟩ := foldlM_routeItem items
  change successItems = [] ++ (itemsAt state.1 done).filter _ at stayed
  change errorItems = _ at moved
  change List.Forall₂ _ ((itemsAt state.1 done).filter _) _ at carried
  rw [soFar.untouched done le_rfl] at stayed carried
  refine ⟨fun index below => ?_, fun index above => ?_, ?_⟩
  · rw [itemsAt_write]
    obtain before | rfl := Nat.lt_succ_iff_lt_or_eq.mp below
    · rw [if_neg before.ne, soFar.routed index before]
    · rw [if_pos rfl, stayed, List.nil_append]
  · rw [itemsAt_write, if_neg (Nat.lt_of_succ_le above).ne', soFar.untouched index (Nat.le_of_succ_le above)]
  · rw [markedItems, List.range_succ, List.flatMap_append, List.flatMap_singleton, moved]
    exact List.rel_append soFar.errors carried

end

namespace OneErrorItem

def context : ErrorOutputContext Nat Nat where
  source := some (onlyMain
    [.full { previousNode := "previousNode", previousNodeOutput := none, previousNodeRun := none }])
  proxy :=
    { mode := .manual
      pinData := ∅
      runData := some ((∅ : OrderedMap String _).set "previousNode"
        [{ data := some (onlyMain [.full [7]]), source := [] }])
      pairedItem := fun _ => none }
  json := fun item => (∅ : OrderedMap String Nat).set "someData" item

def node : INode := { id := "1", name := "Node1", type := "test.set", onError := some .continueErrorOutput }

def failed : OutputItem Nat where
  json := ((∅ : OrderedMap String Nat).set "error" 500).set "message" 1
  pairedItem := some (.data { item := 0, input := some 0 })

def succeeded : OutputItem Nat where
  json := (∅ : OrderedMap String Nat).set "regularData" 3

end OneErrorItem

end N8n.Core
