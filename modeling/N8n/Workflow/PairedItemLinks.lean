import N8n.Workflow.WorkflowDataProxy

/-! # Where paired items lead

What the recorded links mean, without the walk that follows them: the items that
they lead to over any path, and how a link ends if a list of links counts as a
link to the item that all of them agree on.  The walk comes to an end when tasks
come from tasks that were executed earlier, and it ends as the links do.
-/

namespace N8n

def PairedItem.single : PairedItem → Option IPairedItemData
  | .number item => some { item }
  | .data pairedItem => some pairedItem
  | .list _ => none

def PairedItem.links : PairedItem → List IPairedItemData
  | .number item => [{ item }]
  | .data pairedItem => [pairedItem]
  | .list pairedItems => pairedItems

theorem PairedItem.mem_links_of_single {recorded : PairedItem} {link : IPairedItemData}
    (isSingle : recorded.single = some link) : link ∈ recorded.links := by
  cases recorded <;> simp_all [PairedItem.single, PairedItem.links]

namespace WorkflowDataProxy

variable {Item : Type}

/-- Where a link of an item leads, if its input exists. -/
def nextSource (source : List (Option ISourceData)) (link : IPairedItemData) : Option (Option ISourceData) :=
  if link.input.getD 0 ≥ (source.length : Int) then none
  else some (link.sourceOverwrite <|> (at? source (link.input.getD 0)).join)

variable (proxy : WorkflowDataProxy Item) (destinationNodeName : String)

def linksAt (sourceData : ISourceData) (index : Int) : Option PairedItem :=
  if proxy.lacksOutput sourceData then none
  else (at? (proxy.previousNodeOutputData sourceData) index).bind proxy.pairedItem

def destinationOutput (sourceData : ISourceData) : Option (List Item) :=
  if proxy.runData.isNone then none
  else (proxy.destinationMain sourceData).bind fun main =>
    match SparseArray.read main (sourceData.previousNodeOutput.getD 0) with
    | .full items => some items
    | .hole | .null => none

/-! ## What the links mean -/

/-- An item of the destination is reached over recorded links and sources. -/
inductive Leads : Option ISourceData → IPairedItemData → Item → Prop where
  | arrived {sourceData : ISourceData} {pairedItem : IPairedItemData} {items : List Item} {item : Item}
    (isDestination : destinationNodeName = sourceData.previousNode)
    (output : proxy.destinationOutput sourceData = some items) (found : at? items pairedItem.item = some item) :
    Leads (some sourceData) pairedItem item
  | followed {sourceData : ISourceData} {pairedItem link : IPairedItemData} {recorded : PairedItem}
    {next : Option ISourceData} {item : Item} (other : destinationNodeName ≠ sourceData.previousNode)
    (isRecorded : proxy.linksAt sourceData pairedItem.item = some recorded) (inside : link ∈ recorded.links)
    (isNext : nextSource (proxy.sourceOf sourceData) link = some next) (later : Leads next link item) :
    Leads (some sourceData) pairedItem item

/-- The walk over links that are no lists comes to an item. -/
inductive ComesTo : Option ISourceData → IPairedItemData → ISourceData → IPairedItemData → Prop where
  | here {sourceData : ISourceData} {pairedItem : IPairedItemData} :
    ComesTo (some sourceData) pairedItem sourceData pairedItem
  | single {sourceData last : ISourceData} {pairedItem link lastItem : IPairedItemData} {recorded : PairedItem}
    {next : Option ISourceData} (other : destinationNodeName ≠ sourceData.previousNode)
    (isRecorded : proxy.linksAt sourceData pairedItem.item = some recorded)
    (isSingle : recorded.single = some link) (isNext : nextSource (proxy.sourceOf sourceData) link = some next)
    (later : ComesTo next link last lastItem) : ComesTo (some sourceData) pairedItem last lastItem

inductive Ending (Item : Type) where
  | item (item : Item)
  /-- At an index that is none, or at a list that says nothing. -/
  | nowhere
  | failed
deriving DecidableEq, Repr

def Ending.ofFound : Option Item → Ending Item
  | some found => .item found
  | none => .nowhere

def Ending.of : Except PairedItemError (Option Item) → Ending Item
  | .ok found => .ofFound found
  | .error _ => .failed

section

variable [DecidableEq Item]

/-- Links that fail are left out, and all others have to end in the same way. -/
def together (endings : List (Ending Item)) : Ending Item :=
  let found := endings.filter (· ≠ .failed)
  let first := found.headD .nowhere
  if found.all (· = first) then first else .failed

inductive Ends : Option ISourceData → IPairedItemData → Ending Item → Prop where
  | noSource {pairedItem : IPairedItemData} : Ends none pairedItem .failed
  | arrived {sourceData : ISourceData} {pairedItem : IPairedItemData}
    (isDestination : destinationNodeName = sourceData.previousNode) :
    Ends (some sourceData) pairedItem (.of (proxy.itemAtDestination sourceData pairedItem))
  | stuck {sourceData : ISourceData} {pairedItem : IPairedItemData}
    (other : destinationNodeName ≠ sourceData.previousNode)
    (notRecorded : proxy.linksAt sourceData pairedItem.item = none) : Ends (some sourceData) pairedItem .failed
  | single {sourceData : ISourceData} {pairedItem link : IPairedItemData} {recorded : PairedItem}
    {next : Option ISourceData} {ending : Ending Item} (other : destinationNodeName ≠ sourceData.previousNode)
    (isRecorded : proxy.linksAt sourceData pairedItem.item = some recorded)
    (isSingle : recorded.single = some link) (isNext : nextSource (proxy.sourceOf sourceData) link = some next)
    (later : Ends next link ending) : Ends (some sourceData) pairedItem ending
  | cut {sourceData : ISourceData} {pairedItem link : IPairedItemData} {recorded : PairedItem}
    (other : destinationNodeName ≠ sourceData.previousNode)
    (isRecorded : proxy.linksAt sourceData pairedItem.item = some recorded)
    (isSingle : recorded.single = some link) (noInput : nextSource (proxy.sourceOf sourceData) link = none) :
    Ends (some sourceData) pairedItem .failed
  | list {sourceData : ISourceData} {pairedItem : IPairedItemData} {pairedItems : List IPairedItemData}
    (endings : IPairedItemData → Ending Item) (other : destinationNodeName ≠ sourceData.previousNode)
    (isRecorded : proxy.linksAt sourceData pairedItem.item = some (.list pairedItems))
    (each : ∀ link ∈ pairedItems, ∀ next, nextSource (proxy.sourceOf sourceData) link = some next →
      Ends next link (endings link))
    (noInput : ∀ link ∈ pairedItems, nextSource (proxy.sourceOf sourceData) link = none → endings link = .failed) :
    Ends (some sourceData) pairedItem (together (pairedItems.map endings))

end

/-- A link of an item with these sources leads to an item of the destination. -/
def LinkLeads (source : List (Option ISourceData)) (link : IPairedItemData) (item : Item) : Prop :=
  ∃ next, nextSource source link = some next ∧ proxy.Leads destinationNodeName next link item

def LinkEnds [DecidableEq Item] (source : List (Option ISourceData)) (link : IPairedItemData) (ending : Ending Item) :
    Prop :=
  ∃ next, nextSource source link = some next ∧ proxy.Ends destinationNodeName next link ending

def ListEnds [DecidableEq Item] (source : List (Option ISourceData))
    (pairedItems : List IPairedItemData) (endings : IPairedItemData → Ending Item) : Prop :=
  ∀ link ∈ pairedItems, (nextSource source link = none ∧ endings link = .failed) ∨
    proxy.LinkEnds destinationNodeName source link (endings link)

/-! ## Links end in one way at most -/

section

variable {proxy : WorkflowDataProxy Item} {destinationNodeName : String}

theorem at?_of_le {α : Type} {list : List α} {index : Int} (beyond : (list.length : Int) ≤ index) :
    at? list index = none := by
  unfold at?
  split
  · rfl
  · apply List.getElem?_eq_none
    omega

theorem at?_of_lt {α : Type} {list : List α} {index : Int} (inside : index < list.length) :
    at? list index = none ↔ index < 0 := by
  unfold at?
  split
  next negative => simp [negative]
  next natural =>
    simp only [List.getElem?_eq_none_iff]
    omega

variable {sourceData : ISourceData}

theorem itemAtDestination_none (noOutput : proxy.destinationOutput sourceData = none)
    (pairedItem : IPairedItemData) : ∃ error, proxy.itemAtDestination sourceData pairedItem = .error error := by
  unfold itemAtDestination
  split
  · exact ⟨_, rfl⟩
  next hasRunData =>
    split
    · exact ⟨_, rfl⟩
    next main isMain =>
      dsimp only
      split
      · exact ⟨_, rfl⟩
      · split
        · exact ⟨_, rfl⟩
        · exact ⟨_, rfl⟩
        next items isFull => simp [destinationOutput, hasRunData, isMain, isFull] at noOutput

theorem itemAtDestination_some {items : List Item}
    (output : proxy.destinationOutput sourceData = some items) (pairedItem : IPairedItemData) :
    proxy.itemAtDestination sourceData pairedItem =
      if pairedItem.item ≥ (items.length : Int) then .error (.invalidInfo sourceData.previousNode)
      else .ok (at? items pairedItem.item) := by
  unfold destinationOutput at output
  split at output
  · cases output
  next hasRunData =>
    obtain ⟨main, isMain, isOutput⟩ := Option.bind_eq_some_iff.mp output
    split at isOutput
    next items' isFull =>
      obtain rfl := Option.some.inj isOutput
      -- The output is one of the run, since something is there.
      have inside : ¬ sourceData.previousNodeOutput.getD 0 ≥ main.length := by
        intro beyond
        rw [SparseArray.read_of_length_le beyond] at isFull
        cases isFull
      simp [itemAtDestination, hasRunData, isMain, inside, isFull]
    · cases isOutput
    · cases isOutput

variable [DecidableEq Item]

theorem Ends.of_single {pairedItem link : IPairedItemData} {recorded : PairedItem}
    {next : Option ISourceData} {ending : Ending Item}
    (ends : proxy.Ends destinationNodeName (some sourceData) pairedItem ending)
    (other : destinationNodeName ≠ sourceData.previousNode)
    (isRecorded : proxy.linksAt sourceData pairedItem.item = some recorded)
    (isSingle : recorded.single = some link) (isNext : nextSource (proxy.sourceOf sourceData) link = some next) :
    proxy.Ends destinationNodeName next link ending := by
  cases ends with
  | arrived => contradiction
  | stuck _ notRecorded => simp [isRecorded] at notRecorded
  | single _ isRecorded' isSingle' isNext' later' =>
    obtain rfl := Option.some.inj (isRecorded.symm.trans isRecorded')
    obtain rfl := Option.some.inj (isSingle.symm.trans isSingle')
    obtain rfl := Option.some.inj (isNext.symm.trans isNext')
    exact later'
  | cut _ isRecorded' isSingle' noInput' =>
    obtain rfl := Option.some.inj (isRecorded.symm.trans isRecorded')
    obtain rfl := Option.some.inj (isSingle.symm.trans isSingle')
    simp [isNext] at noInput'
  | list _ _ isRecorded' =>
    obtain rfl := Option.some.inj (isRecorded.symm.trans isRecorded')
    cases isSingle

variable {pairedItem : IPairedItemData}

/-- A list of links ends as its links do together. -/
theorem Ends.of_list {pairedItems : List IPairedItemData}
    {ending : Ending Item} (ends : proxy.Ends destinationNodeName (some sourceData) pairedItem ending)
    (other : destinationNodeName ≠ sourceData.previousNode)
    (isRecorded : proxy.linksAt sourceData pairedItem.item = some (.list pairedItems)) :
    ∃ endings, together (pairedItems.map endings) = ending ∧
      proxy.ListEnds destinationNodeName (proxy.sourceOf sourceData) pairedItems endings := by
  cases ends with
  | arrived => contradiction
  | stuck _ notRecorded => simp [isRecorded] at notRecorded
  | single _ isRecorded' isSingle' | cut _ isRecorded' isSingle' =>
    obtain rfl := Option.some.inj (isRecorded.symm.trans isRecorded')
    cases isSingle'
  | list endings _ isRecorded' each noInput =>
    obtain rfl := PairedItem.list.inj (Option.some.inj (isRecorded.symm.trans isRecorded'))
    refine ⟨endings, rfl, fun link inside => ?_⟩
    rcases Option.eq_none_or_eq_some (nextSource (proxy.sourceOf sourceData) link) with none_ | ⟨next, isNext⟩
    · exact .inl ⟨none_, noInput link inside none_⟩
    · exact .inr ⟨next, isNext, each link inside next isNext⟩

theorem Ends.unique {source : Option ISourceData} {ending ending' : Ending Item}
    (ends : proxy.Ends destinationNodeName source pairedItem ending)
    (ends' : proxy.Ends destinationNodeName source pairedItem ending') : ending = ending' := by
  induction ends generalizing ending' with
  | noSource => cases ends'; rfl
  | arrived isDestination =>
    cases ends' with
    | arrived => rfl
    | _ => contradiction
  | stuck other notRecorded =>
    cases ends' with
    | stuck => rfl
    | arrived => contradiction
    | single _ isRecorded' | cut _ isRecorded' | list _ _ isRecorded' => simp [notRecorded] at isRecorded'
  | single other isRecorded isSingle isNext later ih =>
    exact ih (ends'.of_single other isRecorded isSingle isNext)
  | cut other isRecorded isSingle noInput =>
    cases ends' with
    | arrived => contradiction
    | stuck | cut => rfl
    | single _ isRecorded' isSingle' isNext' =>
      obtain rfl := Option.some.inj (isRecorded.symm.trans isRecorded')
      obtain rfl := Option.some.inj (isSingle.symm.trans isSingle')
      simp [noInput] at isNext'
    | list _ _ isRecorded' =>
      obtain rfl := Option.some.inj (isRecorded.symm.trans isRecorded')
      cases isSingle
  | @list _ _ pairedItems endings other isRecorded each noInput ih =>
    obtain ⟨endings', rfl, each'⟩ := ends'.of_list other isRecorded
    -- The links end in the same way one by one.
    have same : ∀ link ∈ pairedItems, endings link = endings' link := by
      intro link inside
      rcases each' link inside with ⟨none_, failed⟩ | ⟨next, isNext, later⟩
      · rw [noInput link inside none_, failed]
      · exact ih link inside next isNext later
    rw [List.map_congr_left same]

theorem LinkEnds.unique {source : List (Option ISourceData)} {link : IPairedItemData} {ending ending' : Ending Item}
    (ends : proxy.LinkEnds destinationNodeName source link ending)
    (ends' : proxy.LinkEnds destinationNodeName source link ending') : ending = ending' := by
  obtain ⟨next, isNext, later⟩ := ends
  obtain ⟨next', isNext', later'⟩ := ends'
  obtain rfl := Option.some.inj (isNext.symm.trans isNext')
  exact later.unique later'

/-! ## A list of links -/

omit [DecidableEq Item] in
theorem Ending.ofFound_injective : Function.Injective (Ending.ofFound : Option Item → Ending Item) := by
  intro found found' same
  cases found <;> cases found' <;> simp_all [Ending.ofFound]

theorem together_cases (endings : List (Ending Item)) :
    (together endings = .nowhere ∧ ∀ ending ∈ endings, ending = .failed) ∨
    (∃ first ∈ endings, first ≠ .failed ∧ together endings = first ∧
      ∀ ending ∈ endings, ending = .failed ∨ ending = first) ∨
    (together endings = .failed ∧ ∃ first ∈ endings, ∃ second ∈ endings,
      first ≠ .failed ∧ second ≠ .failed ∧ first ≠ second) := by
  unfold together
  dsimp only
  cases isFound : endings.filter (· ≠ .failed) with
  | nil =>
    left
    exact ⟨rfl, fun ending inside => by simpa using List.filter_eq_nil_iff.mp isFound ending inside⟩
  | cons first rest =>
    right
    have members : ∀ ending, ending ∈ first :: rest ↔ ending ∈ endings ∧ ending ≠ .failed := by
      intro ending
      rw [← isFound, List.mem_filter, decide_eq_true_iff]
    obtain ⟨firstInside, notFailed⟩ := (members first).mp List.mem_cons_self
    rw [List.headD_cons]
    split
    next same =>
      left
      refine ⟨first, firstInside, notFailed, rfl, fun ending inside => ?_⟩
      by_cases failed : ending = .failed
      · exact .inl failed
      · exact .inr (by simpa using List.all_eq_true.mp same ending ((members ending).mpr ⟨inside, failed⟩))
    next different =>
      right
      refine ⟨rfl, ?_⟩
      simp only [List.all_eq_true, decide_eq_true_iff, not_forall] at different
      obtain ⟨second, inside, differs⟩ := different
      obtain ⟨secondInside, notFailed'⟩ := (members second).mp inside
      exact ⟨first, firstInside, second, secondInside, notFailed, notFailed', Ne.symm differs⟩

theorem Ends.leads {source : Option ISourceData} {ending : Ending Item}
    (ends : proxy.Ends destinationNodeName source pairedItem ending) {item : Item} (isItem : ending = .item item) :
    proxy.Leads destinationNodeName source pairedItem item := by
  induction ends with
  | noSource | stuck | cut => cases isItem
  | @arrived sourceData pairedItem isDestination =>
    rcases Option.eq_none_or_eq_some (proxy.destinationOutput sourceData) with noOutput | ⟨items, output⟩
    · obtain ⟨error, fails⟩ := itemAtDestination_none noOutput pairedItem
      rw [fails] at isItem
      cases isItem
    · rw [itemAtDestination_some output] at isItem
      split at isItem
      · cases isItem
      · refine .arrived isDestination output ?_
        exact Ending.ofFound_injective isItem
  | single other isRecorded isSingle isNext later ih =>
    exact .followed other isRecorded (PairedItem.mem_links_of_single isSingle) isNext (ih isItem)
  | @list sourceData _ pairedItems endings other isRecorded each noInput ih =>
    rcases together_cases (pairedItems.map endings) with ⟨nowhere, _⟩ | ⟨first, inside, _, isFirst, _⟩ | ⟨failed, _⟩
    · rw [nowhere] at isItem
      cases isItem
    · obtain rfl := isFirst.symm.trans isItem
      obtain ⟨link, isLink, isEnding⟩ := List.mem_map.mp inside
      rcases Option.eq_none_or_eq_some (nextSource (proxy.sourceOf sourceData) link) with none_ | ⟨next, isNext⟩
      · rw [noInput link isLink none_] at isEnding
        cases isEnding
      · exact .followed other isRecorded isLink isNext (ih link isLink next isNext isEnding)
    · rw [failed] at isItem
      cases isItem

section

variable {source : List (Option ISourceData)} {pairedItems : List IPairedItemData}
  {endings : IPairedItemData → Ending Item} {link : IPairedItemData}

theorem ListEnds.eq (each : proxy.ListEnds destinationNodeName source pairedItems endings) (inside : link ∈ pairedItems)
    {ending : Ending Item} (ends : proxy.LinkEnds destinationNodeName source link ending) : endings link = ending := by
  rcases each link inside with ⟨none_, _⟩ | ends'
  · obtain ⟨_, isNext, _⟩ := ends
    simp [none_] at isNext
  · exact ends'.unique ends

theorem ListEnds.ends (each : proxy.ListEnds destinationNodeName source pairedItems endings)
    {ending : Ending Item} (inside : ending ∈ pairedItems.map endings) (notFailed : ending ≠ .failed) :
    ∃ link ∈ pairedItems, proxy.LinkEnds destinationNodeName source link ending := by
  obtain ⟨link, isLink, rfl⟩ := List.mem_map.mp inside
  rcases each link isLink with ⟨_, failed⟩ | ends
  · exact absurd failed notFailed
  · exact ⟨link, isLink, ends⟩

theorem LinkEnds.leads {item : Item} (ends : proxy.LinkEnds destinationNodeName source link (.item item)) :
    proxy.LinkLeads destinationNodeName source link item := by
  obtain ⟨next, isNext, later⟩ := ends
  exact ⟨next, isNext, later.leads rfl⟩

end

end

end WorkflowDataProxy

end N8n
