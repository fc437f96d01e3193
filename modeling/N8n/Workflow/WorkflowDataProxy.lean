import N8n.Workflow.Interfaces

/-! # Paired items

`getPairedItem` of `packages/workflow/src/WorkflowDataProxy.ts`: the walk from
an item back over the recorded `pairedItem` links to the item of a node that
ran before.  The texts of the errors are left out; what differs in them is kept.
-/

namespace N8n

structure IPairedItemData where
  item : Int
  /-- If undefined `0` gets used. -/
  input : Option Int := none
  sourceOverwrite : Option ISourceData := none
deriving DecidableEq, Repr

/-- The shapes of `pairedItem` in `INodeExecutionData`. -/
inductive PairedItem where
  | number (item : Int)
  | data (pairedItem : IPairedItemData)
  | list (pairedItems : List IPairedItemData)
deriving DecidableEq, Repr

/-- A run of a node with the tasks that its inputs came from. -/
structure TaskData (Item : Type) extends ITaskData Item where
  source : List (Option ISourceData)

inductive UsedMethodName where
  | pairedItem
  | itemMatching
  | item
  | getPairedItem
deriving DecidableEq, Repr

/-- What is thrown while paired items are looked for. -/
inductive PairedItemError where
  /-- Referencing a non-existent output on a node, problem with source data -/
  | internal (nodeCause : Option String)
  | invalidInfo (nodeCause : String)
  | missingInfo (nodeCause : String) (usedMethodName : UsedMethodName)
  | noConnection (nodeCause : String)
  | multipleMatches (item : Int) (nodeCause : String)
  | branchNotFound (nodeCause : Option String) (previousNode : String) (item : Int) (previousNodeRun : Nat)
  /-- Could not resolve, probably no pairedItem exists -/
  | noInfo (nodeCause : Option String)
  /-- Item points to a node output which does not exist -/
  | outputNotFound (nodeCause : String) (previousNodeOutput : Nat)
  | typeError
deriving DecidableEq, Repr

/-- What the proxy looks items up in.  An item is an object, so that `=` is `===`. -/
structure WorkflowDataProxy (Item : Type) where
  mode : WorkflowExecuteMode
  pinData : IPinData Item
  /-- `runExecutionData?.resultData?.runData` -/
  runData : Option (OrderedMap String (List (TaskData Item)))
  /-- The property of the item. -/
  pairedItem : Item → Option PairedItem

namespace WorkflowDataProxy

variable {Item : Type}

/-- `list[index]`, where nothing is at a negative index. -/
def at? {α : Type} (list : List α) (index : Int) : Option α := if index < 0 then none else list[index.toNat]?

theorem mem_of_at? {α : Type} {list : List α} {index : Int} {value : α} (found : at? list index = some value) :
    value ∈ list := by
  unfold at? at found
  split at found
  · cases found
  · exact List.mem_of_getElem? found

variable (proxy : WorkflowDataProxy Item)

def getPinDataIfManualExecution (nodeName : String) : Option (List Item) :=
  if proxy.mode ≠ .manual then none else proxy.pinData.get? nodeName

/-- `runData[previousNode]?.[previousNodeRun || 0]` -/
def taskDataOf (sourceData : ISourceData) : Option (TaskData Item) :=
  proxy.runData.bind fun runData => (runData.get? sourceData.previousNode).bind fun runs =>
    runs[sourceData.previousNodeRun.getD 0]?

/-- `taskData?.data?.main` -/
def main (taskData : Option (TaskData Item)) : Option (List (Slot (List Item))) :=
  taskData.bind fun taskData => taskData.data.bind fun data => data.get? .main

def lacksOutput (sourceData : ISourceData) : Bool :=
  match main (proxy.taskDataOf sourceData) with
  | none => false
  | some main => sourceData.previousNodeOutput.getD 0 ≥ main.length

def previousNodeOutputData (sourceData : ISourceData) : List Item :=
  let main := (main (proxy.taskDataOf sourceData)).getD []
  match SparseArray.read main (sourceData.previousNodeOutput.getD 0) with
  | .full items => items
  | .hole | .null => (proxy.getPinDataIfManualExecution sourceData.previousNode).getD []

/-- The sources of the run, one for each of its inputs. -/
def sourceOf (sourceData : ISourceData) : List (Option ISourceData) :=
  (proxy.taskDataOf sourceData).elim [] TaskData.source

/-- The local variables of the loop. -/
structure Walk where
  sourceData : Option ISourceData
  pairedItem : IPairedItemData
  currentPairedItem : IPairedItemData
  nodeBeforeLast : Option String

/-- Before the loop. -/
def Walk.start (incomingSourceData : Option ISourceData) (pairedItem : IPairedItemData) : Walk :=
  { sourceData := pairedItem.sourceOverwrite <|> incomingSourceData
    pairedItem
    currentPairedItem := pairedItem
    nodeBeforeLast := none }

inductive Turn where
  | throws (error : PairedItemError)
  /-- The item is based on multiple items. -/
  | multiple (pairedItems : List IPairedItemData) (source : List (Option ISourceData))
  | next (walk : Walk)

/-- The rest of a turn, for a link that is no list. -/
def follow (destinationNodeName : String) (walk : Walk) (sourceData : ISourceData) (source : List (Option ISourceData))
    (pairedItem : IPairedItemData) : Turn :=
  let currentPairedItem := walk.pairedItem
  let itemInput := pairedItem.input.getD 0
  if itemInput ≥ (source.length : Int) then
    if source.length = 0 then .throws (.noConnection destinationNodeName)
    else .throws (.branchNotFound walk.nodeBeforeLast sourceData.previousNode currentPairedItem.item
      (sourceData.previousNodeRun.getD 0))
  else .next
    { sourceData := pairedItem.sourceOverwrite <|> (at? source itemInput).join
      pairedItem
      currentPairedItem
      nodeBeforeLast := some sourceData.previousNode }

def turn (destinationNodeName : String) (usedMethodName : UsedMethodName) (walk : Walk) (sourceData : ISourceData) :
    Turn :=
  if proxy.lacksOutput sourceData then .throws (.internal walk.nodeBeforeLast)
  else
    let previousNodeOutputData := proxy.previousNodeOutputData sourceData
    let source := proxy.sourceOf sourceData
    if walk.pairedItem.item ≥ previousNodeOutputData.length then .throws (.invalidInfo sourceData.previousNode)
    else match at? previousNodeOutputData walk.pairedItem.item with
      | none => .throws .typeError
      | some itemPreviousNode => match proxy.pairedItem itemPreviousNode with
        | none => .throws (.missingInfo sourceData.previousNode usedMethodName)
        | some (.list pairedItems) => .multiple pairedItems source
        | some (.number item) => follow destinationNodeName walk sourceData source { item }
        | some (.data pairedItem) => follow destinationNodeName walk sourceData source pairedItem

/-- The outputs of the destination; the pinned data stands in for a run that is missing. -/
def destinationMain (sourceData : ISourceData) : Option (List (Slot (List Item))) :=
  match proxy.taskDataOf sourceData with
  | some taskData => main (some taskData)
  | none => (proxy.getPinDataIfManualExecution sourceData.previousNode).map fun pinData => [.full pinData]

/-- After the loop, at the destination.  Nothing is returned for an index below zero. -/
def itemAtDestination (sourceData : ISourceData) (pairedItem : IPairedItemData) :
    Except PairedItemError (Option Item) :=
  if proxy.runData.isNone then .error .typeError
  else match proxy.destinationMain sourceData with
    | none => .error .typeError
    | some main =>
      let previousNodeOutput := sourceData.previousNodeOutput.getD 0
      if previousNodeOutput ≥ main.length then .error (.outputNotFound sourceData.previousNode previousNodeOutput)
      else match SparseArray.read main previousNodeOutput with
        | .hole | .null => .error .typeError
        | .full items =>
          if pairedItem.item ≥ items.length then .error (.invalidInfo sourceData.previousNode)
          else .ok (at? items pairedItem.item)

section

variable [DecidableEq Item]

/-- The result of an item that is based on multiple items, from the results of its links that are not `null`. -/
def matching (destinationNodeName : String) (item : Int) (results : List (Option Item)) :
    Except PairedItemError (Option Item) :=
  let firstResult := results.head?.join
  if results.length ≠ 1 then
    if results.all (· = firstResult) then .ok firstResult
    else .error (.multipleMatches item destinationNodeName)
  else .ok firstResult

/-- The loop and what comes after it.  The fuel bounds the number of turns. -/
def findItem (destinationNodeName : String) (usedMethodName : UsedMethodName) :
    Nat → Walk → Option (Except PairedItemError (Option Item))
  | 0, _ => none
  | fuel + 1, walk => match walk.sourceData with
    | none => some (.error (.noInfo walk.nodeBeforeLast))
    | some sourceData =>
      if destinationNodeName = sourceData.previousNode then
        some (proxy.itemAtDestination sourceData walk.pairedItem)
      else match proxy.turn destinationNodeName usedMethodName walk sourceData with
        | .throws error => some (.error error)
        | .next walk => findItem destinationNodeName usedMethodName fuel walk
        | .multiple pairedItems source => do
          -- `null` stands for a link that could not be resolved.
          let results ← pairedItems.mapM fun pairedItem =>
            let itemInput := pairedItem.input.getD 0
            if itemInput ≥ (source.length : Int) then some none
            else (findItem destinationNodeName usedMethodName fuel
              (.start (at? source itemInput).join pairedItem)).map Except.toOption
          some (matching destinationNodeName walk.currentPairedItem.item results.reduceOption)

def getPairedItem (fuel : Nat) (destinationNodeName : String) (incomingSourceData : Option ISourceData)
    (pairedItem : IPairedItemData) (usedMethodName : UsedMethodName := .getPairedItem) :
    Option (Except PairedItemError (Option Item)) :=
  proxy.findItem destinationNodeName usedMethodName fuel (.start incomingSourceData pairedItem)

end

end WorkflowDataProxy

end N8n
