import N8n.Library.Decimal
import N8n.Library.DepthFirst
import N8n.Library.PathTable
import N8n.Workflow.PairedItemLinks

/-! # The mapping of paired items

`packages/editor-ui/src/utils/pairedItemUtils.ts`: which items of a run belong
together.  A walk back over the recorded sources lists for every item the paths
of links that lead to it, the runs that a run comes from before the run itself;
two items are mapped to each other when one is on a path of the other.  Of an
item only its links stand here.
-/

namespace N8n.PairedItemUtils

open WorkflowDataProxy (at? mem_of_at?)

def MAX_ITEM_COUNT_FOR_PAIRING : Nat := 1000

structure ExecutionItem where
  pairedItem : Option PairedItem := none
deriving DecidableEq, Repr

abbrev RunData := OrderedMap String (List (TaskData ExecutionItem))

structure ResultData where
  runData : Option RunData
  pinData : Option (IPinData ExecutionItem)

abbrev Paths := PathTable.Table String

def getPairedItemId (node : String) (run output : Nat) (item : Int) : String :=
  node ++ "_r" ++ toString run ++ "_o" ++ toString output ++ "_i" ++ toString item

/-- The source item that a link names; a node without a name is none. -/
def sourceItemOf (sources : List (Option ISourceData)) (pairedItem : IPairedItemData) : Option String :=
  match (at? sources (pairedItem.input.getD 0)).join with
  | none => none
  | some source =>
    if source.previousNode = "" then none
    else some (getPairedItemId source.previousNode (source.previousNodeRun.getD 0) (source.previousNodeOutput.getD 0)
      pairedItem.item)

def addPairing (paths : Paths) (pairedItemId : String) (pairedItem : IPairedItemData)
    (sources : List (Option ISourceData)) : Paths :=
  let paths := PathTable.push paths pairedItemId []
  match sourceItemOf sources pairedItem with
  -- trigger nodes for example
  | none => PathTable.push paths pairedItemId [[pairedItemId]]
  | some sourceItem =>
    -- pinned data case
    let paths := PathTable.withStart paths sourceItem
    PathTable.push paths pairedItemId ((PathTable.listed paths sourceItem).map (· ++ [pairedItemId]))

/-- The turn of one item; the number `0` counts as no link. -/
def addItem (sources : List (Option ISourceData)) (paths : Paths) (pairedItemId : String)
    (executionData : ExecutionItem) :
    Paths :=
  match executionData.pairedItem with
  | none | some (.number 0) => paths.set pairedItemId []
  | some (.list pairedItems) => pairedItems.foldl (fun paths item => addPairing paths pairedItemId item sources) paths
  | some (.data pairedItem) => addPairing paths pairedItemId pairedItem sources
  | some (.number item) => addPairing paths pairedItemId { item } sources

def addItems (node : String) (runIndex : Nat) (sources : List (Option ISourceData))
    (mainData : List (Slot (List ExecutionItem))) (paths : Paths) : Paths :=
  mainData.zipIdx.foldl (fun paths (outputData, output) =>
    match outputData with
    | .full outputData => outputData.zipIdx.foldl (fun paths (executionData, item) =>
        addItem sources paths (getPairedItemId node runIndex output item) executionData) paths
    | .hole | .null => paths) paths

structure PairingState where
  seen : List String
  paths : Paths

def runKey (node : String) (runIndex : Nat) : String := node ++ "_r" ++ toString runIndex

/-- Fuel stands for the call stack; `none` is an overflow. -/
def addPairedItemIdsRec (runData : RunData) (pinned : List String) :
    Nat → String → Nat → PairingState → Option PairingState
  | 0, _, _, _ => none
  | fuel + 1, node, runIndex, state =>
    let key := runKey node runIndex
    if key ∈ state.seen then some state
    else
      let state := { state with seen := state.seen ++ [key] }
      if node ∈ pinned then some state
      else match (runData.get? node).bind (·[runIndex]?) with
        | none => some state
        | some data => match data.data.bind (·.get? .main) with
          | none => some state
          | some mainData => do
            let state ← data.source.foldlM (fun state source => match source with
              | none => some state
              | some source =>
                if source.previousNode = "" then some state
                else addPairedItemIdsRec runData pinned fuel source.previousNode (source.previousNodeRun.getD 0) state)
              state
            some { state with paths := addItems node runIndex data.source mainData state.paths }

abbrev Mapping := OrderedMap String (List String)

/-- `mapping[item] = mapping[item] || new Set(); mapping[item].add(otherItem)` -/
def addTo (mapping : Mapping) (item otherItem : String) : Mapping :=
  let others := (mapping.get? item).getD []
  mapping.set item (if otherItem ∈ others then others else others ++ [otherItem])

def getMapping (paths : Paths) : Mapping :=
  paths.entries.foldl (fun mapping (item, itemPaths) =>
    itemPaths.foldl (fun mapping path =>
      path.foldl (fun mapping otherItem =>
        if otherItem ≠ item then addTo (addTo mapping otherItem item) item otherItem else mapping) mapping) mapping) ∅

def getItemsCount (runData : RunData) : Nat :=
  (runData.values.flatten.map fun taskData => match taskData.data with
    | none => 0
    | some data => (data.values.flatten.map fun run => match run with
      | .full items => items.length
      | .hole | .null => 0).sum).sum

/-- The runs in the order of the loops over nodes and their runs. -/
def runsOf (runData : RunData) : List (String × Nat) :=
  runData.entries.flatMap fun (node, tasks) => (List.range tasks.length).map (node, ·)

/-- A call below another one is for a new run, or it returns at once. -/
def callStack (runData : RunData) : Nat := (runsOf runData).length + 1

def getPairedItemsMapping (resultData : Option ResultData) : Option Mapping :=
  match resultData.bind (·.runData) with
  | none => some ∅
  | some runData =>
    if getItemsCount runData > MAX_ITEM_COUNT_FOR_PAIRING then some ∅
    else do
      let pinned := ((resultData.bind (·.pinData)).getD ∅).keys
      let state ← (runsOf runData).foldlM
        (fun state (node, runIndex) => addPairedItemIdsRec runData pinned (callStack runData) node runIndex state)
        { seen := [], paths := ∅ }
      some (getMapping state.paths)

/-! ## What is recorded -/

structure RecordedItem where
  id : String
  pairedItem : Option PairedItem
  sources : List (Option ISourceData)

def RecordedItem.links (recorded : RecordedItem) : List IPairedItemData :=
  match recorded.pairedItem with
  | none => []
  | some pairedItem => pairedItem.links

def RecordedItem.targets (recorded : RecordedItem) : List (Option String) :=
  recorded.links.map (sourceItemOf recorded.sources)

/-- The value of `pairedItem` is missing or `0`. -/
def RecordedItem.Falsy (recorded : RecordedItem) : Prop :=
  recorded.pairedItem = none ∨ recorded.pairedItem = some (.number 0)

instance (recorded : RecordedItem) : Decidable recorded.Falsy := inferInstanceAs (Decidable (_ ∨ _))

def recordedOutputs (run : String × Nat) (sources : List (Option ISourceData))
    (mainData : List (Slot (List ExecutionItem))) : List RecordedItem :=
  mainData.zipIdx.flatMap fun (outputData, output) => (outputData.getD []).zipIdx.map fun (executionData, item) =>
    { id := getPairedItemId run.1 run.2 output item, pairedItem := executionData.pairedItem, sources }

/-- Every source comes from a run that is earlier in some order. -/
def SourcesEarlier (runData : RunData) : Prop :=
  ∃ rank : String × Nat → Nat, ∀ node tasks, runData.get? node = some tasks →
    ∀ (runIndex : Nat) (taskData : TaskData ExecutionItem), tasks[runIndex]? = some taskData →
      ∀ source, some source ∈ taskData.source → source.previousNode ≠ "" →
        rank (source.previousNode, source.previousNodeRun.getD 0) < rank (node, runIndex)

section

variable (runData : RunData) (pinned : List String)

/-- The sources and the output of a run, unless its node is pinned. -/
def outputOf (run : String × Nat) : Option (List (Option ISourceData) × List (Slot (List ExecutionItem))) :=
  if run.1 ∈ pinned then none
  else ((runData.get? run.1).bind (·[run.2]?)).bind fun data => (data.data.bind (·.get? .main)).map (data.source, ·)

def recordedItems (run : String × Nat) : List RecordedItem :=
  match outputOf runData pinned run with
  | none => []
  | some (sources, mainData) => recordedOutputs run sources mainData

def LinksTo (first second : String) : Prop :=
  ∃ run, ∃ recorded ∈ recordedItems runData pinned run, recorded.id = first ∧ some second ∈ recorded.targets

/-- One of the items is reached from the other. -/
def Related (first second : String) : Prop :=
  first ≠ second ∧
    (Relation.TransGen (LinksTo runData pinned) first second ∨ Relation.TransGen (LinksTo runData pinned) second first)

def FalsyItem (id : String) : Prop :=
  ∃ run, ∃ recorded ∈ recordedItems runData pinned run, recorded.id = id ∧ recorded.Falsy

/-- No link leads from or to an item whose `pairedItem` is missing or `0`. -/
def NothingLost : Prop :=
  ∀ first second, LinksTo runData pinned first second → ¬ FalsyItem runData pinned first ∧
    ¬ FalsyItem runData pinned second

end

def Mapping.othersOf (mapping : Mapping) (item : String) : List String := (OrderedMap.get? mapping item).getD []

def pinnedNodes (pinData : Option (IPinData ExecutionItem)) : List String := (pinData.getD ∅).keys

/-- The mapping is symmetric, and maps exactly the items to each other of which one is reached from the other. -/
def MapsExactly (runData : RunData) (pinData : Option (IPinData ExecutionItem)) : Prop :=
  ∃ mapping, getPairedItemsMapping (some { runData := some runData, pinData }) = some mapping ∧
    (∀ first second, second ∈ mapping.othersOf first → first ∈ mapping.othersOf second) ∧
    ∀ first second, second ∈ mapping.othersOf first ↔ Related runData (pinnedNodes pinData) first second

/-! ## Ids -/

theorem toList_getPairedItemId (node : String) (run output : Nat) (item : Int) :
    (getPairedItemId node run output item).toList = ((node.toList ++ '_' :: 'r' :: Text.printInt run) ++
      '_' :: 'o' :: Text.printInt output) ++ '_' :: 'i' :: Text.printInt item := by
  simp only [getPairedItemId, String.toList_append, Text.toList_toString]
  simp [Text.printInt]

theorem not_mem_cons_printInt {letter : Char} (notSeparator : letter ≠ '_') (number : Int) :
    '_' ∉ letter :: Text.printInt number := by
  rw [List.mem_cons, not_or]
  exact ⟨notSeparator.symm, Text.not_mem_printInt (by decide) (by decide) number⟩

theorem getPairedItemId_inj {node node' : String} {run run' output output' : Nat} {item item' : Int}
    (same : getPairedItemId node run output item = getPairedItemId node' run' output' item') :
    node = node' ∧ run = run' ∧ output = output' ∧ item = item' := by
  have lists := congrArg String.toList same
  rw [toList_getPairedItemId, toList_getPairedItemId] at lists
  obtain ⟨lists, items⟩ := Text.append_separator_last_inj (not_mem_cons_printInt (by decide) _)
    (not_mem_cons_printInt (by decide) _) lists
  obtain ⟨lists, outputs⟩ := Text.append_separator_last_inj (not_mem_cons_printInt (by decide) _)
    (not_mem_cons_printInt (by decide) _) lists
  obtain ⟨nodes, runs⟩ := Text.append_separator_last_inj (not_mem_cons_printInt (by decide) _)
    (not_mem_cons_printInt (by decide) _) lists
  exact ⟨String.toList_injective nodes, Int.ofNat_inj.mp (Text.printInt_injective (List.cons.inj runs).2),
    Int.ofNat_inj.mp (Text.printInt_injective (List.cons.inj outputs).2),
    Text.printInt_injective (List.cons.inj items).2⟩

theorem runKey_injective : Function.Injective fun run : String × Nat => runKey run.1 run.2 := by
  intro run run' same
  have lists := congrArg String.toList same
  have toList_runKey : ∀ run : String × Nat,
      (runKey run.1 run.2).toList = run.1.toList ++ '_' :: 'r' :: Text.printInt run.2 := by
    intro run
    simp only [runKey, String.toList_append, Text.toList_toString]
    simp [Text.printInt]
  rw [toList_runKey, toList_runKey] at lists
  obtain ⟨nodes, runs⟩ := Text.append_separator_last_inj (not_mem_cons_printInt (by decide) _)
    (not_mem_cons_printInt (by decide) _) lists
  exact Prod.ext (String.toList_injective nodes) (Int.ofNat_inj.mp (Text.printInt_injective (List.cons.inj runs).2))

/-! ## The steps of the walk -/

open PathTable (Step step)

def RecordedItem.steps (recorded : RecordedItem) : List (Step String) :=
  if recorded.Falsy then [.drop recorded.id] else recorded.targets.map (.link recorded.id)

theorem addPairing_eq (paths : Paths) (pairedItemId : String) (pairedItem : IPairedItemData)
    (sources : List (Option ISourceData)) :
    addPairing paths pairedItemId pairedItem sources =
      step paths (.link pairedItemId (sourceItemOf sources pairedItem)) := by
  rw [addPairing]
  cases sourceItemOf sources pairedItem <;> rfl

theorem foldl_steps {recorded : RecordedItem} (notFalsy : ¬ recorded.Falsy) (paths : Paths) :
    recorded.steps.foldl step paths =
      recorded.links.foldl (fun paths link => addPairing paths recorded.id link recorded.sources) paths := by
  rw [RecordedItem.steps, if_neg notFalsy, RecordedItem.targets, List.map_map, List.foldl_map]
  simp only [addPairing_eq]
  rfl

theorem addItem_eq (sources : List (Option ISourceData)) (paths : Paths) (pairedItemId : String)
    (executionData : ExecutionItem) :
    addItem sources paths pairedItemId executionData =
      (RecordedItem.steps
        { id := pairedItemId, pairedItem := executionData.pairedItem, sources }).foldl step paths := by
  obtain ⟨pairedItem⟩ := executionData
  by_cases falsy : RecordedItem.Falsy { id := pairedItemId, pairedItem, sources }
  · rw [RecordedItem.steps, if_pos falsy]
    obtain rfl | rfl : pairedItem = none ∨ pairedItem = some (.number 0) := falsy
    · rfl
    · rfl
  · rw [foldl_steps falsy, addItem]
    simp only [RecordedItem.Falsy, not_or] at falsy
    split
    next isNone => exact absurd isNone falsy.1
    next isZero => exact absurd isZero falsy.2
    next isList =>
      obtain rfl : pairedItem = _ := isList
      rfl
    next isData =>
      obtain rfl : pairedItem = _ := isData
      rfl
    next isNumber =>
      obtain rfl : pairedItem = _ := isNumber
      rfl

theorem addItems_eq (run : String × Nat) (sources : List (Option ISourceData))
    (mainData : List (Slot (List ExecutionItem))) (paths : Paths) :
    addItems run.1 run.2 sources mainData paths =
      ((recordedOutputs run sources mainData).flatMap RecordedItem.steps).foldl step paths := by
  rw [addItems, recordedOutputs, List.flatMap_assoc, List.foldl_flatMap]
  congr 1
  funext paths ⟨outputData, output⟩
  rw [List.flatMap_map, List.foldl_flatMap]
  cases outputData with
  | full items => simp only [addItem_eq, Slot.getD_full]
  | hole | null => rfl

/-! ## The order of the walk -/

open DepthFirst (Run Call Event leaves)

def runOf (source : Option ISourceData) : Option (String × Nat) :=
  match source with
  | none => none
  | some source => if source.previousNode = "" then none else some (source.previousNode, source.previousNodeRun.getD 0)

section

variable (runData : RunData) (pinned : List String)

def sourceRuns (run : String × Nat) : List (String × Nat) :=
  match outputOf runData pinned run with
  | none => []
  | some (sources, _) => sources.filterMap runOf

def runSteps (run : String × Nat) : List (Step String) := (recordedItems runData pinned run).flatMap RecordedItem.steps

/-- The state of the walk when the runs have been visited and the paths are these. -/
def stateAt (visited : List (String × Nat)) (paths : Paths) : PairingState where
  seen := visited.map fun run => runKey run.1 run.2
  paths := paths

def visit (fuel : Nat) (state : PairingState) (run : String × Nat) : Option PairingState :=
  addPairedItemIdsRec runData pinned fuel run.1 run.2 state

variable {runData pinned}

variable {visited : List (String × Nat)} {run : String × Nat}

theorem key_mem_seen {paths : Paths} :
    runKey run.1 run.2 ∈ (stateAt visited paths).seen ↔ run ∈ visited :=
  List.mem_map_of_injective runKey_injective

theorem visit_seen (member : run ∈ visited) (fuel : Nat) (paths : Paths) :
    visit runData pinned (fuel + 1) (stateAt visited paths) run = some (stateAt visited paths) := by
  rw [visit, addPairedItemIdsRec]
  exact if_pos (key_mem_seen.mpr member)

theorem stateAt_seen (visited : List (String × Nat)) (paths : Paths) (run : String × Nat) :
    { stateAt visited paths with seen := (stateAt visited paths).seen ++ [runKey run.1 run.2] } =
      stateAt (visited ++ [run]) paths := by
  simp [stateAt]

theorem foldlM_sources (fuel : Nat) (sources : List (Option ISourceData)) (state : PairingState) :
    sources.foldlM (fun state source => match source with
      | none => some state
      | some source =>
        if source.previousNode = "" then some state
        else addPairedItemIdsRec runData pinned fuel source.previousNode (source.previousNodeRun.getD 0) state) state =
      (sources.filterMap runOf).foldlM (visit runData pinned fuel) state := by
  rw [List.foldlM_filterMap]
  congr 1
  funext state source
  cases source with
  | none => rfl
  | some source =>
    simp only [runOf]
    split
    next => rfl
    next => rfl

theorem visit_fresh (unvisited : run ∉ visited) (fuel : Nat) (paths : Paths) :
    visit runData pinned (fuel + 1) (stateAt visited paths) run =
      ((sourceRuns runData pinned run).foldlM (visit runData pinned fuel) (stateAt (visited ++ [run]) paths)).map
        fun state => { state with paths := (runSteps runData pinned run).foldl step state.paths } := by
  rw [visit, addPairedItemIdsRec]
  simp only [key_mem_seen, unvisited, stateAt_seen, ↓reduceIte]
  rw [sourceRuns, runSteps, recordedItems, outputOf]
  by_cases isPinned : run.1 ∈ pinned
  · simp only [isPinned, ↓reduceIte]
    rfl
  simp only [isPinned, ↓reduceIte]
  cases (runData.get? run.1).bind (·[run.2]?) with
  | none => rfl
  | some data =>
    simp only [Option.bind_some]
    cases data.data.bind (·.get? .main) with
    | none => rfl
    | some mainData =>
      simp only [foldlM_sources, addItems_eq, Option.map_eq_bind]
      rfl

theorem mem_runsOf {tasks : List (TaskData ExecutionItem)} {taskData : TaskData ExecutionItem}
    (isNode : runData.get? run.1 = some tasks) (isRun : tasks[run.2]? = some taskData) : run ∈ runsOf runData := by
  obtain ⟨inRange, _⟩ := List.getElem?_eq_some_iff.mp isRun
  exact List.mem_flatMap.mpr ⟨(run.1, tasks), OrderedMap.get?_eq_some.mp isNode,
    List.mem_map.mpr ⟨run.2, List.mem_range.mpr inRange, rfl⟩⟩

theorem exists_taskData {sources : List (Option ISourceData)} {mainData : List (Slot (List ExecutionItem))}
    (isOutput : outputOf runData pinned run = some (sources, mainData)) :
    ∃ tasks taskData, runData.get? run.1 = some tasks ∧ tasks[run.2]? = some taskData ∧ taskData.source = sources := by
  rw [outputOf] at isOutput
  split at isOutput
  next => cases isOutput
  next =>
    obtain ⟨taskData, found, output⟩ := Option.bind_eq_some_iff.mp isOutput
    obtain ⟨tasks, isNode, isRun⟩ := Option.bind_eq_some_iff.mp found
    obtain ⟨_, _, same⟩ := Option.map_eq_some_iff.mp output
    exact ⟨tasks, taskData, isNode, isRun, (Prod.mk.inj same).1⟩

theorem mem_runsOf_of_outputOf (isSome : (outputOf runData pinned run).isSome) :
    run ∈ runsOf runData := by
  obtain ⟨output, isOutput⟩ := Option.isSome_iff_exists.mp isSome
  obtain ⟨tasks, taskData, isNode, isRun, _⟩ := exists_taskData isOutput
  exact mem_runsOf isNode isRun

theorem mem_runsOf_of_sourceRuns (hasSources : sourceRuns runData pinned run ≠ []) :
    run ∈ runsOf runData := by
  apply mem_runsOf_of_outputOf
  rw [sourceRuns] at hasSources
  cases isOutput : outputOf runData pinned run with
  | none => simp [isOutput] at hasSources
  | some output => rfl

def stepsOf (runData : RunData) (pinned : List String) (events : List (Event (String × Nat))) : List (Step String) :=
  (leaves events).flatMap (runSteps runData pinned)

theorem stepsOf_append (first second : List (Event (String × Nat))) :
    stepsOf runData pinned (first ++ second) = stepsOf runData pinned first ++ stepsOf runData pinned second := by
  rw [stepsOf, DepthFirst.leaves_append, List.flatMap_append, ← stepsOf, ← stepsOf]

theorem stepsOf_retreat (run source : String × Nat) (events : List (Event (String × Nat))) :
    stepsOf runData pinned (.retreat run source :: events) = stepsOf runData pinned events := rfl

/-- The fuel is enough for a call; a loop over nothing needs none. -/
def Enough (runData : RunData) (fuel : Nat) (visited : List (String × Nat)) : Call (String × Nat) → Prop
  | .loop _ remaining => remaining ≠ [] → (Traversal.unmarked (runsOf runData) visited).length < fuel
  | _ => (Traversal.unmarked (runsOf runData) visited).length < fuel

def Follows (runData : RunData) (pinned : List String) (fuel : Nat) (before after : PairingState) :
    Call (String × Nat) → Prop
  | .visit run => visit runData pinned fuel before run = some after
  | .loop _ remaining | .roots remaining => remaining.foldlM (visit runData pinned fuel) before = some after

/-- The walk goes depth first over the source runs, and pairs the items of a run when it leaves it. -/
theorem follows_of_run {call : Call (String × Nat)} {visited visited' : List (String × Nat)}
    {events : List (Event (String × Nat))} (run : Run (sourceRuns runData pinned) call visited events visited') :
    ∀ fuel paths, Enough runData fuel visited call → Follows runData pinned fuel (stateAt visited paths)
      (stateAt visited' ((stepsOf runData pinned events).foldl step paths)) call := by
  induction run with
  | seen member =>
    intro fuel paths enough
    obtain ⟨fuel, rfl⟩ := Nat.exists_eq_succ_of_ne_zero (Nat.ne_of_gt (Nat.zero_lt_of_lt enough))
    exact visit_seen member fuel paths
  | @fresh run visited visited' events unvisited below ih =>
    intro fuel paths enough
    obtain ⟨fuel, rfl⟩ := Nat.exists_eq_succ_of_ne_zero (Nat.ne_of_gt (Nat.zero_lt_of_lt enough))
    have loop := ih fuel paths (by
      intro hasSources
      have fewer := Traversal.length_unmarked_lt (mem_runsOf_of_sourceRuns hasSources) unvisited
      have enough : (Traversal.unmarked (runsOf runData) visited).length < fuel + 1 := enough
      omega)
    rw [Follows] at loop
    rw [Follows, visit_fresh unvisited, loop]
    simp [stateAt, stepsOf]
  | done => exact fun fuel paths _ => rfl
  | @next _ _ _ _ _ _ first _ down further visits loops =>
    intro fuel paths enough
    have enough := enough (List.cons_ne_nil _ _)
    have fewer := Traversal.length_unmarked_le (runsOf runData) down.isPrefix.subset
    have turn : visit runData pinned fuel _ _ = some _ := visits fuel paths enough
    have rest := loops fuel ((stepsOf runData pinned first).foldl step paths) fun _ => Nat.lt_of_le_of_lt fewer enough
    rw [Follows, List.foldlM_cons, turn, stepsOf_append, stepsOf_retreat, List.foldl_append]
    exact rest
  | finished => exact fun fuel paths _ => rfl
  | @root _ _ _ _ _ first _ down further visits loops =>
    intro fuel paths enough
    have fewer := Traversal.length_unmarked_le (runsOf runData) down.isPrefix.subset
    have turn : visit runData pinned fuel _ _ = some _ := visits fuel paths enough
    have rest := loops fuel ((stepsOf runData pinned first).foldl step paths) (Nat.lt_of_le_of_lt fewer enough)
    rw [Follows, List.foldlM_cons, turn, stepsOf_append, List.foldl_append]
    exact rest

/-! ## The order of the links -/

variable {recorded : RecordedItem}

theorem id_of_mem_recordedOutputs {sources : List (Option ISourceData)} {mainData : List (Slot (List ExecutionItem))}
    (member : recorded ∈ recordedOutputs run sources mainData) :
    recorded.sources = sources ∧ ∃ output item, recorded.id = getPairedItemId run.1 run.2 output item := by
  obtain ⟨⟨outputData, output⟩, _, inOutput⟩ := List.mem_flatMap.mp member
  obtain ⟨⟨executionData, item⟩, _, rfl⟩ := List.mem_map.mp inOutput
  exact ⟨rfl, output, item, rfl⟩

def OfRun (run : String × Nat) (id : String) : Prop := ∃ output item, id = getPairedItemId run.1 run.2 output item

theorem OfRun.unique {run run' : String × Nat} {id : String} (ofRun : OfRun run id) (ofRun' : OfRun run' id) :
    run = run' := by
  obtain ⟨output, item, rfl⟩ := ofRun
  obtain ⟨output', item', same⟩ := ofRun'
  obtain ⟨nodes, runs, _⟩ := getPairedItemId_inj same
  exact Prod.ext nodes runs

theorem ofRun_of_mem (member : recorded ∈ recordedItems runData pinned run) : OfRun run recorded.id := by
  rw [recordedItems] at member
  split at member
  next => cases member
  next => exact (id_of_mem_recordedOutputs member).2

theorem ofRun_of_target {target : String} (member : recorded ∈ recordedItems runData pinned run)
    (isTarget : some target ∈ recorded.targets) :
    ∃ source ∈ sourceRuns runData pinned run, OfRun source target := by
  rw [recordedItems] at member
  rw [sourceRuns]
  split at member
  next => cases member
  next sources mainData isOutput =>
    rw [RecordedItem.targets, (id_of_mem_recordedOutputs member).1] at isTarget
    obtain ⟨link, _, leads⟩ := List.mem_map.mp isTarget
    rw [sourceItemOf] at leads
    split at leads
    next => cases leads
    next source found =>
      split at leads
      next => cases leads
      next named =>
        refine ⟨(source.previousNode, source.previousNodeRun.getD 0), ?_, _, _, (Option.some.inj leads).symm⟩
        apply List.mem_filterMap.mpr
        refine ⟨some source, ?_, if_neg named⟩
        exact mem_of_at? (Option.join_eq_some_iff.mp found)

theorem zipIdx_pairwise {α : Type} (list : List α) : list.zipIdx.Pairwise fun first second => first.2 ≠ second.2 := by
  have nodup : (list.zipIdx.map Prod.snd).Nodup := by
    rw [List.zipIdx_map_snd]
    exact List.nodup_range'
  exact List.pairwise_map.mp nodup

theorem recordedItems_pairwise (run : String × Nat) :
    (recordedItems runData pinned run).Pairwise fun first second => first.id ≠ second.id := by
  rw [recordedItems]
  split
  next => exact .nil
  next sources mainData _ =>
    refine List.pairwise_flatMap.mpr ⟨?_, ?_⟩
    · intro ⟨outputData, output⟩ _
      refine List.pairwise_map.mpr ((zipIdx_pairwise _).imp ?_)
      intro first second apart same
      exact apart (Int.ofNat_inj.mp (getPairedItemId_inj same).2.2.2)
    · refine (zipIdx_pairwise _).imp ?_
      intro first second apart item inFirst other inSecond same
      obtain ⟨_, _, rfl⟩ := List.mem_map.mp inFirst
      obtain ⟨_, _, rfl⟩ := List.mem_map.mp inSecond
      exact apart (getPairedItemId_inj same).2.2.1

theorem mem_steps {step : Step String} (member : step ∈ recorded.steps) :
    step.id = recorded.id ∧ (∀ target, step.target = some target → some target ∈ recorded.targets) ∧
      (step = .drop recorded.id ↔ recorded.Falsy) := by
  rw [RecordedItem.steps] at member
  split at member
  next falsy =>
    obtain rfl := List.mem_singleton.mp member
    refine ⟨rfl, ?_, iff_of_true rfl falsy⟩
    intro target isTarget
    cases isTarget
  next truthy =>
    obtain ⟨target, isTarget, rfl⟩ := List.mem_map.mp member
    refine ⟨rfl, ?_, iff_of_false (by simp) truthy⟩
    intro other same
    exact same ▸ isTarget

theorem steps_pairwise (recorded : RecordedItem) :
    recorded.steps.Pairwise fun earlier later => earlier ≠ .drop earlier.id ∧ later ≠ .drop later.id := by
  rw [RecordedItem.steps]
  split
  next => exact List.pairwise_singleton _ _
  next => exact List.pairwise_map.mpr (List.pairwise_of_forall fun _ _ => by simp)

theorem runSteps_pairwise (run : String × Nat) :
    (runSteps runData pinned run).Pairwise fun earlier later =>
      earlier.id = later.id → earlier ≠ .drop earlier.id ∧ later ≠ .drop later.id := by
  refine List.pairwise_flatMap.mpr ⟨?_, ?_⟩
  · intro recorded _
    refine (steps_pairwise recorded).imp ?_
    intro earlier later linked _
    exact linked
  · refine (recordedItems_pairwise run).imp ?_
    intro first second differs earlier inFirst later inSecond same
    rw [(mem_steps inFirst).1, (mem_steps inSecond).1] at same
    exact absurd same differs

theorem rank_lt_of_sourceRuns {rank : String × Nat → Nat}
    (earlier : ∀ node tasks, runData.get? node = some tasks →
      ∀ (runIndex : Nat) (taskData : TaskData ExecutionItem), tasks[runIndex]? = some taskData →
        ∀ source, some source ∈ taskData.source → source.previousNode ≠ "" →
          rank (source.previousNode, source.previousNodeRun.getD 0) < rank (node, runIndex))
    {run source : String × Nat} (isSource : source ∈ sourceRuns runData pinned run) : rank source < rank run := by
  rw [sourceRuns] at isSource
  split at isSource
  next => cases isSource
  next sources mainData isOutput =>
    obtain ⟨tasks, taskData, isNode, isRun, rfl⟩ := exists_taskData isOutput
    obtain ⟨given, member, names⟩ := List.mem_filterMap.mp isSource
    cases given with
    | none => cases names
    | some given =>
      rw [runOf] at names
      split at names
      next => cases names
      next named => exact Option.some.inj names ▸ earlier run.1 tasks isNode run.2 taskData isRun given member named

def Acyclic (runData : RunData) (pinned : List String) : Prop :=
  ∀ run, ¬ Relation.TransGen (fun run source => source ∈ sourceRuns runData pinned run) run run

theorem acyclic_of_sourcesEarlier (pinned : List String) (earlier : SourcesEarlier runData) :
    Acyclic runData pinned := by
  intro run
  obtain ⟨rank, earlier⟩ := earlier
  have decreases : ∀ {first last},
      Relation.TransGen (fun run source => source ∈ sourceRuns runData pinned run) first last →
      rank last < rank first := by
    intro first last path
    induction path with
    | single isSource => exact rank_lt_of_sourceRuns earlier isSource
    | tail _ isSource ih =>
      exact Nat.lt_trans (rank_lt_of_sourceRuns earlier isSource) ih
  exact fun cycle => Nat.lt_irrefl _ (decreases cycle)

theorem mem_runSteps {step : Step String} (member : step ∈ runSteps runData pinned run) :
    OfRun run step.id ∧ ∀ target, step.target = some target →
      ∃ source ∈ sourceRuns runData pinned run, OfRun source target := by
  obtain ⟨recorded, isRecorded, inSteps⟩ := List.mem_flatMap.mp member
  obtain ⟨sameId, targets, _⟩ := mem_steps inSteps
  refine ⟨sameId ▸ ofRun_of_mem isRecorded, ?_⟩
  intro target isTarget
  exact ofRun_of_target isRecorded (targets target isTarget)

theorem target_ne {run run' : String × Nat} (notSource : run' ∉ sourceRuns runData pinned run)
    {first second : Step String}
    (isFirst : first ∈ runSteps runData pinned run) (isSecond : second ∈ runSteps runData pinned run') :
    first.target ≠ some second.id := by
  intro leads
  obtain ⟨source, isSource, ofSource⟩ := (mem_runSteps isFirst).2 _ leads
  exact notSource (ofSource.unique (mem_runSteps isSecond).1 ▸ isSource)

theorem not_own_source (acyclic : Acyclic runData pinned)
    (run : String × Nat) : run ∉ sourceRuns runData pinned run :=
  fun isSource => acyclic run (.single isSource)

theorem ordered_of_pairwise {order : List (String × Nat)}
    (acyclic : Acyclic runData pinned)
    (pairwise : order.Pairwise fun earlier later => earlier ≠ later ∧ later ∉ sourceRuns runData pinned earlier) :
    PathTable.Ordered (order.flatMap (runSteps runData pinned)) := by
  refine ⟨List.pairwise_flatMap.mpr ⟨?sameRun, ?otherRun⟩, ?self⟩
  case sameRun =>
    intro run _
    apply List.Pairwise.and
    · apply List.pairwise_of_forall_mem_list
      exact fun first isFirst second isSecond => target_ne (not_own_source acyclic run) isFirst isSecond
    · exact runSteps_pairwise run
  case otherRun =>
    refine pairwise.imp ?_
    intro earlier later ⟨differs, notSource⟩ first isFirst second isSecond
    refine ⟨target_ne notSource isFirst isSecond, fun same => ?_⟩
    exact absurd ((mem_runSteps isFirst).1.unique (same ▸ (mem_runSteps isSecond).1)) differs
  case self =>
    intro step member
    obtain ⟨run, _, inRun⟩ := List.mem_flatMap.mp member
    exact target_ne (not_own_source acyclic run) inRun inRun

/-! ## The mapping -/

theorem mem_othersOf_addTo {mapping : Mapping} {item otherItem first second : String} :
    second ∈ (addTo mapping item otherItem).othersOf first ↔
      second ∈ mapping.othersOf first ∨ first = item ∧ second = otherItem := by
  rw [addTo, Mapping.othersOf, OrderedMap.get?_set, Mapping.othersOf]
  by_cases same : first = item
  · subst same
    rw [if_pos rfl, Option.getD_some]
    split
    next known =>
      simp only [true_and]
      exact ⟨.inl, fun either => either.elim id fun same => same ▸ known⟩
    next => simp
  · simp [same]

/-- The two items are the item whose path it is and another one on it. -/
def Pairs (first second item otherItem : String) : Prop :=
  otherItem ≠ item ∧ (first = otherItem ∧ second = item ∨ first = item ∧ second = otherItem)

theorem mem_othersOf_path {mapping : Mapping} {item first second : String} (path : List String) :
    second ∈ (path.foldl (fun mapping otherItem =>
        if otherItem ≠ item then addTo (addTo mapping otherItem item) item otherItem
        else mapping) mapping).othersOf first ↔
      second ∈ mapping.othersOf first ∨ ∃ otherItem ∈ path, Pairs first second item otherItem := by
  apply Loop.foldl_iff_exists (fun mapping : Mapping => second ∈ mapping.othersOf first) (Pairs first second item)
  intro mapping otherItem
  split
  next apart => simp [mem_othersOf_addTo, Pairs, apart, or_assoc]
  next same => simp [Pairs, same]

variable {first second : String}

theorem mem_othersOf_getMapping {paths : Paths} :
    second ∈ (getMapping paths).othersOf first ↔
      first ≠ second ∧ (PathTable.OnPath paths first second ∨ PathTable.OnPath paths second first) := by
  have mem : second ∈ (getMapping paths).othersOf first ↔ second ∈ Mapping.othersOf ∅ first ∨
      ∃ entry ∈ paths.entries, ∃ path ∈ entry.2, ∃ otherItem ∈ path, Pairs first second entry.1 otherItem := by
    rw [getMapping]
    apply Loop.foldl_iff_exists (fun mapping : Mapping => second ∈ mapping.othersOf first)
      fun entry : String × List (List String) =>
        ∃ path ∈ entry.2, ∃ otherItem ∈ path, Pairs first second entry.1 otherItem
    intro mapping entry
    obtain ⟨item, itemPaths⟩ := entry
    apply Loop.foldl_iff_exists (fun mapping : Mapping => second ∈ mapping.othersOf first)
      fun path => ∃ otherItem ∈ path, Pairs first second item otherItem
    exact fun mapping path => mem_othersOf_path path
  rw [mem]
  constructor
  · rintro (impossible | ⟨⟨item, itemPaths⟩, isEntry, path, isPath, otherItem, onPath, apart, pairs⟩)
    · cases impossible
    · have listed : path ∈ PathTable.listed paths item := by
        rw [PathTable.listed, OrderedMap.get?_eq_some.mpr isEntry]
        exact isPath
      obtain ⟨rfl, rfl⟩ | ⟨rfl, rfl⟩ := pairs
      · exact ⟨apart, .inr ⟨path, listed, onPath⟩⟩
      · exact ⟨Ne.symm apart, .inl ⟨path, listed, onPath⟩⟩
  · have entry : ∀ {item otherItem : String}, PathTable.OnPath paths item otherItem →
        ∃ itemPaths, (item, itemPaths) ∈ paths.entries ∧ ∃ path ∈ itemPaths, otherItem ∈ path := by
      intro item otherItem onPath
      obtain ⟨path, isPath, onPath⟩ := onPath
      rw [PathTable.listed] at isPath
      cases found : paths.get? item with
      | none => simp [found] at isPath
      | some itemPaths =>
        exact ⟨itemPaths, OrderedMap.get?_eq_some.mp found, path, by simpa [found] using isPath, onPath⟩
    intro related
    obtain ⟨apart, either⟩ := related
    right
    cases either with
    | inl onPath =>
      obtain ⟨itemPaths, isEntry, path, isPath, onPath⟩ := entry onPath
      exact ⟨_, isEntry, path, isPath, second, onPath, Ne.symm apart, .inr ⟨rfl, rfl⟩⟩
    | inr onPath =>
      obtain ⟨itemPaths, isEntry, path, isPath, onPath⟩ := entry onPath
      exact ⟨_, isEntry, path, isPath, first, onPath, apart, .inl ⟨rfl, rfl⟩⟩

/-- The walk pairs the items of every run, after those of the runs that it comes from. -/
theorem exists_walk (runData : RunData) (pinned : List String)
    (acyclic : Acyclic runData pinned) :
    ∃ order : List (String × Nat),
      (order.Pairwise fun earlier later => earlier ≠ later ∧ later ∉ sourceRuns runData pinned earlier) ∧
      (∀ run ∈ runsOf runData, run ∈ order) ∧
      ∃ visited, (runsOf runData).foldlM (visit runData pinned (callStack runData)) (stateAt [] ∅) =
        some (stateAt visited ((order.flatMap (runSteps runData pinned)).foldl step ∅)) := by
  have closed : ∀ run ∈ runsOf runData ++ (runsOf runData).flatMap (sourceRuns runData pinned),
      ∀ source ∈ sourceRuns runData pinned run,
        source ∈ runsOf runData ++ (runsOf runData).flatMap (sourceRuns runData pinned) := by
    intro run _ source isSource
    exact List.mem_append_right _ (List.mem_flatMap.mpr
      ⟨run, mem_runsOf_of_sourceRuns (List.ne_nil_of_mem isSource), isSource⟩)
  obtain ⟨events, visited, run⟩ := DepthFirst.exists_search closed (fun run member => List.mem_append_left _ member) []
  refine ⟨leaves events, run.leaves_pairwise acyclic trivial, ?_, visited, ?_⟩
  · intro root isRoot
    exact (run.mem_visited_iff.mp (run.visits root isRoot)).resolve_left List.not_mem_nil
  · apply follows_of_run run
    show (Traversal.unmarked (runsOf runData) []).length < callStack runData
    rw [Traversal.unmarked_nil]
    exact Nat.lt_succ_self _

/-! ## What the mapping leaves out -/

variable {order : List (String × Nat)}

theorem mem_order_of_recorded (complete : ∀ run ∈ runsOf runData, run ∈ order)
    (member : recorded ∈ recordedItems runData pinned run) : run ∈ order := by
  apply complete
  apply mem_runsOf_of_outputOf
  rw [recordedItems] at member
  cases isOutput : outputOf runData pinned run with
  | none => simp [isOutput] at member
  | some output => rfl

theorem drop_mem_iff (complete : ∀ run ∈ runsOf runData, run ∈ order) {id : String} :
    .drop id ∈ order.flatMap (runSteps runData pinned) ↔ FalsyItem runData pinned id := by
  constructor
  · intro member
    obtain ⟨run, _, inRun⟩ := List.mem_flatMap.mp member
    obtain ⟨recorded, isRecorded, inSteps⟩ := List.mem_flatMap.mp inRun
    obtain ⟨sameId, _, drop_iff⟩ := mem_steps inSteps
    obtain rfl : id = recorded.id := sameId
    exact ⟨run, recorded, isRecorded, rfl, drop_iff.mp rfl⟩
  · intro ⟨run, recorded, isRecorded, sameId, falsy⟩
    refine List.mem_flatMap.mpr ⟨run, mem_order_of_recorded complete isRecorded, ?_⟩
    refine List.mem_flatMap.mpr ⟨recorded, isRecorded, ?_⟩
    rw [RecordedItem.steps, if_pos falsy, sameId]
    exact List.mem_singleton_self _

/-- The walk follows the links of items whose `pairedItem` is truthy. -/
theorem leads_iff (complete : ∀ run ∈ runsOf runData, run ∈ order) :
    PathTable.Leads (order.flatMap (runSteps runData pinned)) first second ↔
      ∃ run, ∃ recorded ∈ recordedItems runData pinned run, ¬ recorded.Falsy ∧ recorded.id = first ∧
        some second ∈ recorded.targets := by
  constructor
  · intro member
    obtain ⟨run, _, inRun⟩ := List.mem_flatMap.mp member
    obtain ⟨recorded, isRecorded, inSteps⟩ := List.mem_flatMap.mp inRun
    obtain ⟨sameId, targets, drop_iff⟩ := mem_steps inSteps
    exact ⟨run, recorded, isRecorded, fun falsy => by simpa using drop_iff.mpr falsy, sameId.symm, targets second rfl⟩
  · intro ⟨run, recorded, isRecorded, truthy, sameId, isTarget⟩
    refine List.mem_flatMap.mpr ⟨run, mem_order_of_recorded complete isRecorded, ?_⟩
    refine List.mem_flatMap.mpr ⟨recorded, isRecorded, ?_⟩
    rw [RecordedItem.steps, if_neg truthy, sameId]
    exact List.mem_map_of_mem isTarget

theorem ne_of_linksTo (acyclic : Acyclic runData pinned) (links : LinksTo runData pinned first second) :
    first ≠ second := by
  obtain ⟨run, recorded, isRecorded, rfl, isTarget⟩ := links
  intro same
  obtain ⟨source, isSource, ofSource⟩ := ofRun_of_target isRecorded isTarget
  have sameRun : source = run := ofSource.unique (same ▸ ofRun_of_mem isRecorded)
  exact not_own_source acyclic run (sameRun ▸ isSource)

/-- The items on paths are those that links lead to, exactly when nothing is lost. -/
theorem onPath_iff_related (acyclic : Acyclic runData pinned)
    (complete : ∀ run ∈ runsOf runData, run ∈ order) {table : Paths}
    (holds : PathTable.Holds (order.flatMap (runSteps runData pinned)) table) :
    (∀ first second, first ≠ second ∧ (PathTable.OnPath table first second ∨ PathTable.OnPath table second first) ↔
      Related runData pinned first second) ↔ NothingLost runData pinned := by
  constructor
  · intro exact_ first second links
    have related := (exact_ first second).mpr ⟨ne_of_linksTo acyclic links, .inl (.single links)⟩
    have unlisted : ∀ {id other}, FalsyItem runData pinned id → ¬ PathTable.OnPath table id other := by
      intro id other falsy onPath
      obtain ⟨path, isPath, _⟩ := onPath
      rw [PathTable.listed, holds.dropped id ((drop_mem_iff complete).mpr falsy)] at isPath
      cases isPath
    have unreached : ∀ {id other}, FalsyItem runData pinned id → ¬ PathTable.OnPath table other id :=
      fun falsy onPath => holds.notDropped _ _ onPath ((drop_mem_iff complete).mpr falsy)
    constructor
    · exact fun falsy => related.2.elim (unlisted falsy) (unreached falsy)
    · exact fun falsy => related.2.elim (unreached falsy) (unlisted falsy)
  · intro nothingLost
    have sameLinks : PathTable.Leads (order.flatMap (runSteps runData pinned)) = LinksTo runData pinned := by
      funext first second
      rw [leads_iff complete, eq_iff_iff]
      constructor
      · intro links
        obtain ⟨run, recorded, isRecorded, _, leads⟩ := links
        exact ⟨run, recorded, isRecorded, leads⟩
      · intro links
        obtain ⟨run, recorded, isRecorded, leads⟩ := links
        refine ⟨run, recorded, isRecorded, fun falsy => ?_, leads⟩
        exact (nothingLost first second ⟨run, recorded, isRecorded, leads⟩).1
          ⟨run, recorded, isRecorded, leads.1, falsy⟩
    have lossless : PathTable.Lossless (order.flatMap (runSteps runData pinned)) := by
      intro first second leads dropped
      rw [sameLinks] at leads
      exact (nothingLost first second leads).2 ((drop_mem_iff complete).mp dropped)
    have onPath_iff : ∀ {first second}, first ≠ second →
        (PathTable.OnPath table first second ↔ Relation.TransGen (LinksTo runData pinned) first second) := by
      intro first second apart
      rw [← sameLinks]
      refine ⟨fun onPath => ?_, holds.onPath lossless⟩
      exact (Relation.reflTransGen_iff_eq_or_transGen.mp (holds.reaches first second onPath)).resolve_left
        (Ne.symm apart)
    intro first second
    refine and_congr_right fun apart => ?_
    rw [onPath_iff apart, onPath_iff (Ne.symm apart)]

end

/-- The mapping is exact exactly when no link leads from or to an item without a truthy `pairedItem`. -/
theorem mapsExactly_iff {runData : RunData} (pinData : Option (IPinData ExecutionItem))
    (earlier : SourcesEarlier runData)
    (few : getItemsCount runData ≤ MAX_ITEM_COUNT_FOR_PAIRING) :
    MapsExactly runData pinData ↔ NothingLost runData (pinnedNodes pinData) := by
  have acyclic := acyclic_of_sourcesEarlier (pinnedNodes pinData) earlier
  obtain ⟨order, pairwise, complete, visited, walk⟩ := exists_walk runData (pinnedNodes pinData) acyclic
  have holds := PathTable.holds_foldl (ordered_of_pairwise acyclic pairwise)
  have maps : getPairedItemsMapping (some { runData := some runData, pinData }) =
      some (getMapping ((order.flatMap (runSteps runData (pinnedNodes pinData))).foldl step ∅)) := by
    simp only [getPairedItemsMapping, Option.bind_some, if_neg (Nat.not_lt.mpr few)]
    exact congrArg (Option.bind · fun state => some (getMapping state.paths)) walk
  rw [← onPath_iff_related acyclic complete holds]
  constructor
  · intro ⟨mapping, isMapping, _, exactly⟩ first second
    obtain rfl := Option.some.inj (maps.symm.trans isMapping)
    rw [← exactly, mem_othersOf_getMapping]
  · intro exactly
    refine ⟨_, maps, ?_, ?_⟩
    · intro first second
      rw [mem_othersOf_getMapping, mem_othersOf_getMapping]
      exact fun ⟨apart, either⟩ => ⟨Ne.symm apart, either.symm⟩
    · intro first second
      rw [mem_othersOf_getMapping]
      exact exactly first second

def taskOf (source : List (Option ISourceData)) (pairedItem : PairedItem) : TaskData ExecutionItem :=
  { data := some (OrderedMap.set ∅ .main [.full [{ pairedItem := some pairedItem }]]), source }

def afterTrigger (pairedItem : PairedItem) : RunData :=
  ⟨[("Trigger", [taskOf [] (.data { item := 0 })]),
    ("Set", [taskOf [some ⟨"Trigger", none, none⟩] pairedItem])], by simp⟩

theorem sourcesEarlier_afterTrigger (pairedItem : PairedItem) : SourcesEarlier (afterTrigger pairedItem) := by
  refine ⟨fun run => if run.1 = "Trigger" then 0 else 1, ?_⟩
  intro node tasks isNode runIndex taskData isRun source isSource _
  have entry := OrderedMap.get?_eq_some.mp isNode
  simp only [afterTrigger, List.mem_cons, Prod.mk.injEq, List.not_mem_nil, or_false] at entry
  obtain ⟨rfl, rfl⟩ | ⟨rfl, rfl⟩ := entry
  · have isTask := List.mem_singleton.mp (List.mem_of_getElem? isRun)
    subst isTask
    cases isSource
  · have isTask := List.mem_singleton.mp (List.mem_of_getElem? isRun)
    subst isTask
    obtain rfl : source = ⟨"Trigger", none, none⟩ := by simpa [taskOf] using isSource
    simp

theorem mapsExactly_iff_afterTrigger :
    MapsExactly (afterTrigger (.data { item := 0 })) none ↔
      NothingLost (afterTrigger (.data { item := 0 })) (pinnedNodes none) :=
  mapsExactly_iff none (sourcesEarlier_afterTrigger _) (by decide)

/-- An item that is linked by the number `0` is not mapped to the item of the trigger. -/
theorem not_mapsExactly_number : ¬ MapsExactly (afterTrigger (.number 0)) none := by
  intro ⟨mapping, isMapping, _, exactly⟩
  have empty :
      getPairedItemsMapping (some { runData := some (afterTrigger (.number 0)), pinData := none }) = some ∅ := by
    decide +kernel
  obtain rfl := Option.some.inj (empty.symm.trans isMapping)
  have links : LinksTo (afterTrigger (.number 0)) (pinnedNodes none) (getPairedItemId "Set" 0 0 0)
      (getPairedItemId "Trigger" 0 0 0) :=
    ⟨("Set", 0), _, List.mem_singleton_self _, rfl, by decide⟩
  have mapped := (exactly _ _).mpr ⟨by decide, .inl (.single links)⟩
  cases mapped

end N8n.PairedItemUtils
