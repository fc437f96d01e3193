import Mathlib.Data.List.ReduceOption
import N8n.Library.Loop
import N8n.Workflow.PairedItemLinks

/-! # Paired items that are found

The walk of `getPairedItem` ends as the recorded links do.  What it returns is an
item of the destination, unless it comes to a list of links none of which can be
resolved: for that it returns nothing.
-/

namespace N8n.WorkflowDataProxy

section

variable {Item : Type} {proxy : WorkflowDataProxy Item} {destinationNodeName : String} {usedMethodName : UsedMethodName}

/-! ## A turn of the loop -/

section

variable {walk : Walk} {sourceData : ISourceData}

theorem turn_stuck (notRecorded : proxy.linksAt sourceData walk.pairedItem.item = none) :
    ∃ error, proxy.turn destinationNodeName usedMethodName walk sourceData = .throws error := by
  unfold linksAt at notRecorded
  unfold turn
  split
  · exact ⟨_, rfl⟩
  next hasOutput =>
    rw [if_neg hasOutput] at notRecorded
    dsimp only
    split
    · exact ⟨_, rfl⟩
    · split
      · exact ⟨_, rfl⟩
      next itemPreviousNode found =>
        rw [found, Option.bind_some] at notRecorded
        rw [notRecorded]
        exact ⟨_, rfl⟩

theorem turn_recorded {recorded : PairedItem}
    (isRecorded : proxy.linksAt sourceData walk.pairedItem.item = some recorded) :
    proxy.turn destinationNodeName usedMethodName walk sourceData = match recorded with
      | .list pairedItems => .multiple pairedItems (proxy.sourceOf sourceData)
      | .number item => follow destinationNodeName walk sourceData (proxy.sourceOf sourceData) { item }
      | .data pairedItem => follow destinationNodeName walk sourceData (proxy.sourceOf sourceData) pairedItem := by
  unfold linksAt at isRecorded
  split at isRecorded
  · cases isRecorded
  next hasOutput =>
    obtain ⟨itemPreviousNode, found, isPairedItem⟩ := Option.bind_eq_some_iff.mp isRecorded
    have inside : ¬ walk.pairedItem.item ≥ ((proxy.previousNodeOutputData sourceData).length : Int) := by
      intro beyond
      rw [at?_of_le beyond] at found
      cases found
    simp only [turn, hasOutput, inside, found, isPairedItem]
    cases recorded <;> rfl

theorem follow_none {source : List (Option ISourceData)} {link : IPairedItemData}
    (noInput : nextSource source link = none) :
    ∃ error, follow destinationNodeName walk sourceData source link = .throws error := by
  unfold nextSource at noInput
  split at noInput
  next beyond =>
    unfold follow
    dsimp only
    rw [if_pos beyond]
    split <;> exact ⟨_, rfl⟩
  · cases noInput

theorem follow_some {source : List (Option ISourceData)} {link : IPairedItemData} {next : Option ISourceData}
    (isNext : nextSource source link = some next) : follow destinationNodeName walk sourceData source link =
      .next ⟨next, link, walk.pairedItem, some sourceData.previousNode⟩ := by
  unfold nextSource at isNext
  split at isNext
  · cases isNext
  next inside =>
    obtain rfl := Option.some.inj isNext
    simp [follow, inside]

end

/-! ## The results of a list of links -/

section

variable [DecidableEq Item]

theorem matching_eq (item : Int) (results : List (Option Item)) : matching destinationNodeName item results =
    if results.all (· = results.head?.join) then .ok results.head?.join
    else .error (.multipleMatches item destinationNodeName) := by
  unfold matching
  dsimp only
  split
  · rfl
  next one =>
    -- A single result is the same as itself.
    obtain ⟨result, rfl⟩ := List.length_eq_one_iff.mp (not_not.mp one)
    simp

def Ending.ofResult : Option (Option Item) → Ending Item
  | none => .failed
  | some found => .ofFound found

omit [DecidableEq Item] in
theorem Ending.ofFound_ne_failed (found : Option Item) : Ending.ofFound found ≠ .failed := by
  cases found <;> simp [Ending.ofFound]

theorem filter_ofResult (results : List (Option (Option Item))) :
    (results.map Ending.ofResult).filter (· ≠ .failed) = results.reduceOption.map Ending.ofFound := by
  induction results with
  | nil => rfl
  | cons result rest ih =>
    cases result with
    | none => simpa [Ending.ofResult, List.reduceOption_cons_of_none] using ih
    | some found =>
      simpa [Ending.ofResult, Ending.ofFound_ne_failed, List.reduceOption_cons_of_some] using ih

theorem of_matching (item : Int) (results : List (Option (Option Item))) :
    Ending.of (matching destinationNodeName item results.reduceOption) = together (results.map Ending.ofResult) := by
  unfold together
  dsimp only
  rw [filter_ofResult, matching_eq]
  generalize results.reduceOption = found
  have first : (found.map Ending.ofFound).headD .nowhere = Ending.ofFound found.head?.join := by
    cases found <;> rfl
  have same : (found.map Ending.ofFound).all (· = Ending.ofFound found.head?.join) =
      found.all (· = found.head?.join) := by
    rw [List.all_map]
    congr 1
    funext other
    simp [Function.comp, Ending.ofFound_injective.eq_iff]
  rw [first, same]
  split <;> rfl

/-- What a link of a list counts for; `null` is a link that could not be resolved. -/
def linkResult (find : Walk → Option (Except PairedItemError (Option Item))) (source : List (Option ISourceData))
    (link : IPairedItemData) : Option (Option (Option Item)) :=
  match nextSource source link with
  | none => some none
  | some next => (find ⟨next, link, link, none⟩).map Except.toOption

omit [DecidableEq Item] in
theorem Ending.ofResult_toOption (result : Except PairedItemError (Option Item)) :
    Ending.ofResult result.toOption = .of result := by
  cases result <;> rfl

omit [DecidableEq Item] in
theorem map_ofResult {find : Walk → Option (Except PairedItemError (Option Item))} {source : List (Option ISourceData)}
    {pairedItems : List IPairedItemData} {results : List (Option (Option Item))}
    (isResults : List.Forall₂ (fun link result => linkResult find source link = some result) pairedItems results) :
    results.map Ending.ofResult =
      pairedItems.map fun link => (linkResult find source link).elim .failed Ending.ofResult := by
  induction isResults with
  | nil => rfl
  | cons isResult _ ih => simp [isResult, ih]

theorem findItem_cases {walk : Walk} {sourceData : ISourceData} (isSource : walk.sourceData = some sourceData)
    (other : destinationNodeName ≠ sourceData.previousNode) :
    (proxy.linksAt sourceData walk.pairedItem.item = none ∧
      ∃ error, ∀ fuel, proxy.findItem destinationNodeName usedMethodName (fuel + 1) walk = some (.error error)) ∨
    (∃ recorded link, proxy.linksAt sourceData walk.pairedItem.item = some recorded ∧ recorded.single = some link ∧
      ((nextSource (proxy.sourceOf sourceData) link = none ∧
          ∃ error, ∀ fuel, proxy.findItem destinationNodeName usedMethodName (fuel + 1) walk = some (.error error)) ∨
        ∃ next, nextSource (proxy.sourceOf sourceData) link = some next ∧
          ∀ fuel, proxy.findItem destinationNodeName usedMethodName (fuel + 1) walk =
            proxy.findItem destinationNodeName usedMethodName fuel
              ⟨next, link, walk.pairedItem, some sourceData.previousNode⟩)) ∨
    (∃ pairedItems, proxy.linksAt sourceData walk.pairedItem.item = some (.list pairedItems) ∧
      ∀ fuel, proxy.findItem destinationNodeName usedMethodName (fuel + 1) walk =
        (pairedItems.mapM (linkResult (proxy.findItem destinationNodeName usedMethodName fuel)
          (proxy.sourceOf sourceData))).map
            fun results => matching destinationNodeName walk.currentPairedItem.item results.reduceOption) := by
  -- A turn throws, goes on with one link or starts one search for each link of a list.
  have throws : ∀ {error}, proxy.turn destinationNodeName usedMethodName walk sourceData = .throws error →
      ∀ fuel, proxy.findItem destinationNodeName usedMethodName (fuel + 1) walk = some (.error error) := by
    intro error isTurn fuel
    simp only [findItem, isSource, other, if_false, isTurn]
  have single : ∀ {recorded link}, proxy.linksAt sourceData walk.pairedItem.item = some recorded →
      recorded.single = some link → proxy.turn destinationNodeName usedMethodName walk sourceData =
        follow destinationNodeName walk sourceData (proxy.sourceOf sourceData) link := by
    intro recorded link isRecorded isSingle
    rw [turn_recorded isRecorded]
    cases recorded with
    | number | data =>
      obtain rfl := Option.some.inj isSingle
      rfl
    | list => cases isSingle
  rcases Option.eq_none_or_eq_some (proxy.linksAt sourceData walk.pairedItem.item) with none_ | ⟨recorded, isRecorded⟩
  · obtain ⟨error, isTurn⟩ := @turn_stuck _ _ destinationNodeName usedMethodName _ _ none_
    exact .inl ⟨none_, error, throws isTurn⟩
  · right
    cases isLinks : recorded.single with
    | some link =>
      left
      refine ⟨recorded, link, isRecorded, isLinks, ?_⟩
      have isTurn := single isRecorded isLinks
      rcases Option.eq_none_or_eq_some (nextSource (proxy.sourceOf sourceData) link) with noInput | ⟨next, isNext⟩
      · obtain ⟨error, isThrow⟩ := @follow_none destinationNodeName walk sourceData _ _ noInput
        exact .inl ⟨noInput, error, throws (isTurn.trans isThrow)⟩
      · refine .inr ⟨next, isNext, fun fuel => ?_⟩
        rw [follow_some isNext] at isTurn
        simp only [findItem, isSource, other, if_false, isTurn]
    | none =>
      right
      cases recorded with
      | number | data => cases isLinks
      | list pairedItems =>
        refine ⟨pairedItems, isRecorded, fun fuel => ?_⟩
        have isTurn : proxy.turn destinationNodeName usedMethodName walk sourceData =
            .multiple pairedItems (proxy.sourceOf sourceData) := turn_recorded isRecorded
        have result : ∀ link, linkResult (proxy.findItem destinationNodeName usedMethodName fuel)
            (proxy.sourceOf sourceData) link =
              if link.input.getD 0 ≥ ((proxy.sourceOf sourceData).length : Int) then some none
              else (proxy.findItem destinationNodeName usedMethodName fuel
                (.start (at? (proxy.sourceOf sourceData) (link.input.getD 0)).join link)).map Except.toOption := by
          intro link
          by_cases beyond : link.input.getD 0 ≥ ((proxy.sourceOf sourceData).length : Int)
          · simp [linkResult, nextSource, beyond]
          · simp [linkResult, nextSource, beyond, Walk.start]
        simp only [findItem, isSource, other, if_false, isTurn, funext result]
        exact Option.map_eq_bind.symm

/-! ## The walk ends as the links do -/

theorem ends_of_findItem {fuel : Nat} {walk : Walk} {result : Except PairedItemError (Option Item)}
    (found : proxy.findItem destinationNodeName usedMethodName fuel walk = some result) :
    proxy.Ends destinationNodeName walk.sourceData walk.pairedItem (.of result) := by
  induction fuel generalizing walk result with
  | zero => cases found
  | succ fuel ih =>
    obtain ⟨sourceData, pairedItem, currentPairedItem, nodeBeforeLast⟩ := walk
    cases sourceData with
    | none =>
      obtain rfl := Option.some.inj found
      exact .noSource
    | some sourceData =>
      by_cases isDestination : destinationNodeName = sourceData.previousNode
      · simp only [findItem, isDestination, if_true, Option.some.injEq] at found
        subst found
        exact .arrived isDestination
      have cases_ := @findItem_cases _ proxy destinationNodeName usedMethodName _
        ⟨some sourceData, pairedItem, currentPairedItem, nodeBeforeLast⟩ sourceData rfl isDestination
      rcases cases_ with ⟨none_, error, throws⟩ |
        ⟨recorded, link, isRecorded, isSingle, ⟨noInput, error, throws⟩ | ⟨next, isNext, goesOn⟩⟩ |
        ⟨pairedItems, isRecorded, isList⟩
      · obtain rfl := Option.some.inj ((throws fuel).symm.trans found)
        exact .stuck isDestination none_
      · obtain rfl := Option.some.inj ((throws fuel).symm.trans found)
        exact .cut isDestination isRecorded isSingle noInput
      · rw [goesOn] at found
        exact .single isDestination isRecorded isSingle isNext (ih found)
      · rw [isList] at found
        obtain ⟨results, isResults, rfl⟩ := Option.map_eq_some_iff.mp found
        rw [Loop.mapM_eq_some_iff] at isResults
        -- How a link ends is read off its result.
        let endings := fun link => (linkResult (proxy.findItem destinationNodeName usedMethodName fuel)
          (proxy.sourceOf sourceData) link).elim .failed Ending.ofResult
        rw [of_matching, map_ofResult isResults]
        refine .list endings isDestination isRecorded ?_ ?_
        · intro link inside next isNext
          obtain ⟨result, _, isResult⟩ := Loop.exists_result_of_mem isResults inside
          have isFound : (proxy.findItem destinationNodeName usedMethodName fuel ⟨next, link, link, none⟩).map
              Except.toOption = some result := by simpa [linkResult, isNext] using isResult
          obtain ⟨found, finds, rfl⟩ := Option.map_eq_some_iff.mp isFound
          have ends := ih finds
          simpa [endings, isResult, Ending.ofResult_toOption] using ends
        · intro link _ noInput
          simp [endings, linkResult, noInput, Ending.ofResult]

/-! ## The walk comes to an end -/

theorem findItem_mono {fuel : Nat} {walk : Walk} {result : Except PairedItemError (Option Item)}
    (found : proxy.findItem destinationNodeName usedMethodName fuel walk = some result) {more : Nat}
    (enough : fuel ≤ more) : proxy.findItem destinationNodeName usedMethodName more walk = some result := by
  induction fuel generalizing walk result more with
  | zero => cases found
  | succ fuel ih =>
    obtain ⟨more, rfl⟩ := Nat.exists_eq_succ_of_ne_zero (show more ≠ 0 by omega)
    have less : fuel ≤ more := Nat.le_of_succ_le_succ enough
    obtain ⟨sourceData, pairedItem, currentPairedItem, nodeBeforeLast⟩ := walk
    cases sourceData with
    | none => exact found
    | some sourceData =>
      by_cases isDestination : destinationNodeName = sourceData.previousNode
      · simpa only [findItem, isDestination, if_true] using found
      have cases_ := @findItem_cases _ proxy destinationNodeName usedMethodName _
        ⟨some sourceData, pairedItem, currentPairedItem, nodeBeforeLast⟩ sourceData rfl isDestination
      rcases cases_ with ⟨_, error, throws⟩ |
        ⟨recorded, link, isRecorded, isSingle, ⟨noInput, error, throws⟩ | ⟨next, isNext, goesOn⟩⟩ |
        ⟨pairedItems, isRecorded, isList⟩
      · rwa [Nat.succ_eq_add_one, throws more, ← throws fuel]
      · rwa [Nat.succ_eq_add_one, throws more, ← throws fuel]
      · rw [goesOn] at found
        rw [Nat.succ_eq_add_one, goesOn]
        exact ih found less
      · rw [isList] at found
        rw [Nat.succ_eq_add_one, isList]
        obtain ⟨results, isResults, rfl⟩ := Option.map_eq_some_iff.mp found
        rw [Loop.mapM_eq_some_iff] at isResults
        -- Every branch returned with less fuel, so every one returns the same with more.
        refine Option.map_eq_some_iff.mpr ⟨results, Loop.mapM_eq_some_iff.mpr (isResults.imp ?_), rfl⟩
        intro link result isResult
        unfold linkResult at *
        split at isResult
        next noInput => simpa [noInput] using isResult
        next next isNext =>
          obtain ⟨found, finds, rfl⟩ := Option.map_eq_some_iff.mp isResult
          rw [ih finds less]
          rfl

/-- The tasks that a run and its items point to were executed before it. -/
structure ExecutedInOrder (proxy : WorkflowDataProxy Item) (executionIndex : String → Nat → Nat) : Prop where
  source : ∀ sourceData previous, some previous ∈ proxy.sourceOf sourceData →
    executionIndex previous.previousNode (previous.previousNodeRun.getD 0) <
      executionIndex sourceData.previousNode (sourceData.previousNodeRun.getD 0)
  sourceOverwrite : ∀ sourceData, ∀ item ∈ proxy.previousNodeOutputData sourceData,
    ∀ recorded ∈ proxy.pairedItem item, ∀ link ∈ recorded.links, ∀ previous ∈ link.sourceOverwrite,
      executionIndex previous.previousNode (previous.previousNodeRun.getD 0) <
        executionIndex sourceData.previousNode (sourceData.previousNodeRun.getD 0)

/-- How many turns the walk can still take. -/
def turnsLeft (executionIndex : String → Nat → Nat) (source : Option ISourceData) : Nat :=
  source.elim 0 fun sourceData => executionIndex sourceData.previousNode (sourceData.previousNodeRun.getD 0) + 1

section

variable {executionIndex : String → Nat → Nat} (inOrder : ExecutedInOrder proxy executionIndex)
include inOrder

omit [DecidableEq Item] in
theorem turnsLeft_next {sourceData : ISourceData} {index : Int} {recorded : PairedItem} {link : IPairedItemData}
    {next : Option ISourceData} (isRecorded : proxy.linksAt sourceData index = some recorded)
    (inside : link ∈ recorded.links) (isNext : nextSource (proxy.sourceOf sourceData) link = some next) :
    turnsLeft executionIndex next < turnsLeft executionIndex (some sourceData) := by
  unfold linksAt at isRecorded
  split at isRecorded
  · cases isRecorded
  obtain ⟨item, found, isPairedItem⟩ := Option.bind_eq_some_iff.mp isRecorded
  unfold nextSource at isNext
  split at isNext
  · cases isNext
  obtain rfl := Option.some.inj isNext
  cases isOverwrite : link.sourceOverwrite with
  | some previous =>
    have earlier := inOrder.sourceOverwrite sourceData item
      (mem_of_at? found) recorded isPairedItem link inside previous
      isOverwrite
    exact Nat.succ_lt_succ earlier
  | none =>
    cases isSource : (at? (proxy.sourceOf sourceData) (link.input.getD 0)).join with
    | none => exact Nat.succ_pos _
    | some previous =>
      have earlier := inOrder.source sourceData previous (mem_of_at? (Option.join_eq_some_iff.mp isSource))
      exact Nat.succ_lt_succ earlier

theorem findItem_returns {fuel : Nat} {walk : Walk} (enough : turnsLeft executionIndex walk.sourceData < fuel) :
    ∃ result, proxy.findItem destinationNodeName usedMethodName fuel walk = some result := by
  induction fuel generalizing walk with
  | zero => omega
  | succ fuel ih =>
    obtain ⟨sourceData, pairedItem, currentPairedItem, nodeBeforeLast⟩ := walk
    cases sourceData with
    | none => exact ⟨_, rfl⟩
    | some sourceData =>
      by_cases isDestination : destinationNodeName = sourceData.previousNode
      · simp only [findItem, isDestination, if_true]
        exact ⟨_, rfl⟩
      have cases_ := @findItem_cases _ proxy destinationNodeName usedMethodName _
        ⟨some sourceData, pairedItem, currentPairedItem, nodeBeforeLast⟩ sourceData rfl isDestination
      rcases cases_ with ⟨_, error, throws⟩ |
        ⟨recorded, link, isRecorded, isSingle, ⟨noInput, error, throws⟩ | ⟨next, isNext, goesOn⟩⟩ |
        ⟨pairedItems, isRecorded, isList⟩
      · exact ⟨_, throws fuel⟩
      · exact ⟨_, throws fuel⟩
      · rw [goesOn]
        -- The next task was executed earlier, so that fewer turns are left.
        have less := turnsLeft_next inOrder isRecorded (PairedItem.mem_links_of_single isSingle) isNext
        exact ih (by simp only at *; omega)
      · rw [isList]
        have each : ∀ link ∈ pairedItems, ∃ result, linkResult
            (proxy.findItem destinationNodeName usedMethodName fuel) (proxy.sourceOf sourceData) link =
              some result := by
          intro link inside
          unfold linkResult
          split
          · exact ⟨_, rfl⟩
          next next isNext =>
            have less := turnsLeft_next inOrder isRecorded inside isNext
            have stillEnough : turnsLeft executionIndex (⟨next, link, link, none⟩ : Walk).sourceData < fuel := by
              simp only at *
              omega
            obtain ⟨result, found⟩ := ih stillEnough
            exact ⟨_, by rw [found]; rfl⟩
        obtain ⟨results, isResults⟩ := Loop.exists_results each
        exact ⟨_, by rw [Loop.mapM_eq_some_iff.mpr isResults]; rfl⟩

end

/-! ## What is returned -/

structure Sound (proxy : WorkflowDataProxy Item) (destinationNodeName : String) (source : Option ISourceData)
    (pairedItem : IPairedItemData) (result : Except PairedItemError (Option Item)) : Prop where
  returned : ∀ found, result = .ok found →
    ∃ item, found = some item ∧ proxy.Leads destinationNodeName source pairedItem item
  /-- If the links of the list that the walk comes to lead to two different items, none of them is picked. -/
  unambiguous : ∀ last lastItem pairedItems, proxy.ComesTo destinationNodeName source pairedItem last lastItem →
    destinationNodeName ≠ last.previousNode → proxy.linksAt last lastItem.item = some (.list pairedItems) →
    ∀ link ∈ pairedItems, ∀ link' ∈ pairedItems, ∀ item item',
      proxy.LinkLeads destinationNodeName (proxy.sourceOf last) link item →
      proxy.LinkLeads destinationNodeName (proxy.sourceOf last) link' item' → item ≠ item' →
      ∃ error, result = .error error

/-- The walk does not come to the destination with an index below zero, and if it comes to a list of links, at least one
of them ends at an item; either none leads to another item then, or another one ends elsewhere. -/
structure Resolvable (proxy : WorkflowDataProxy Item) (destinationNodeName : String) (source : Option ISourceData)
    (pairedItem : IPairedItemData) : Prop where
  index : ∀ last lastItem items, proxy.ComesTo destinationNodeName source pairedItem last lastItem →
    destinationNodeName = last.previousNode → proxy.destinationOutput last = some items → 0 ≤ lastItem.item
  list : ∀ last lastItem pairedItems, proxy.ComesTo destinationNodeName source pairedItem last lastItem →
    destinationNodeName ≠ last.previousNode → proxy.linksAt last lastItem.item = some (.list pairedItems) →
    ∃ link ∈ pairedItems, ∃ item, proxy.LinkEnds destinationNodeName (proxy.sourceOf last) link (.item item) ∧
      ((∀ other ∈ pairedItems, ∀ item',
          proxy.LinkLeads destinationNodeName (proxy.sourceOf last) other item' → item' = item) ∨
        ∃ other ∈ pairedItems, ∃ ending, proxy.LinkEnds destinationNodeName (proxy.sourceOf last) other ending ∧
          ending ≠ .failed ∧ ending ≠ .item item)

section

variable {source : Option ISourceData} {pairedItem : IPairedItemData}

variable {result : Except PairedItemError (Option Item)}

omit [DecidableEq Item] in
theorem Ending.of_eq_nowhere (isNowhere : Ending.of result = .nowhere) :
    result = .ok none := by
  cases result with
  | error => cases isNowhere
  | ok found =>
    cases found with
    | none => rfl
    | some => cases isNowhere

omit [DecidableEq Item] in
theorem Ending.of_eq_failed (isFailed : Ending.of result = .failed) :
    ∃ error, result = .error error := by
  cases result with
  | error error => exact ⟨error, rfl⟩
  | ok found => exact absurd isFailed (Ending.ofFound_ne_failed found)

variable {ending : Ending Item}

theorem ComesTo.ends_last {last : ISourceData} {lastItem : IPairedItemData}
    (comes : proxy.ComesTo destinationNodeName source pairedItem last lastItem)
    (ends : proxy.Ends destinationNodeName source pairedItem ending) :
    proxy.Ends destinationNodeName (some last) lastItem ending := by
  induction comes with
  | here => exact ends
  | single other isRecorded isSingle isNext later ih => exact ih (ends.of_single other isRecorded isSingle isNext)

/-- Nothing is found at an index below zero, or at a list none of whose links ends at an item. -/
theorem Ends.nowhere (ends : proxy.Ends destinationNodeName source pairedItem ending) (isNowhere : ending = .nowhere) :
    (∃ last lastItem items, proxy.ComesTo destinationNodeName source pairedItem last lastItem ∧
      destinationNodeName = last.previousNode ∧ proxy.destinationOutput last = some items ∧ lastItem.item < 0) ∨
    ∃ last lastItem pairedItems, proxy.ComesTo destinationNodeName source pairedItem last lastItem ∧
      destinationNodeName ≠ last.previousNode ∧ proxy.linksAt last lastItem.item = some (.list pairedItems) ∧
      ∀ link ∈ pairedItems, ∀ item, ¬ proxy.LinkEnds destinationNodeName (proxy.sourceOf last) link (.item item) := by
  induction ends with
  | noSource | stuck | cut => cases isNowhere
  | @arrived sourceData pairedItem isDestination =>
    left
    rcases Option.eq_none_or_eq_some (proxy.destinationOutput sourceData) with noOutput | ⟨items, output⟩
    · obtain ⟨error, fails⟩ := itemAtDestination_none noOutput pairedItem
      rw [fails] at isNowhere
      cases isNowhere
    · refine ⟨sourceData, pairedItem, items, .here, isDestination, output, ?_⟩
      rw [itemAtDestination_some output] at isNowhere
      split at isNowhere
      · cases isNowhere
      next inside =>
        have nothing : at? items pairedItem.item = none := Except.ok.inj (Ending.of_eq_nowhere isNowhere)
        exact (at?_of_lt (by omega)).mp nothing
  | single other isRecorded isSingle isNext later ih =>
    rcases ih isNowhere with ⟨last, lastItem, items, comes, rest⟩ | ⟨last, lastItem, items, comes, rest⟩
    · exact .inl ⟨last, lastItem, items, .single other isRecorded isSingle isNext comes, rest⟩
    · exact .inr ⟨last, lastItem, items, .single other isRecorded isSingle isNext comes, rest⟩
  | @list sourceData pairedItem pairedItems endings other isRecorded each noInput _ =>
    right
    refine ⟨sourceData, pairedItem, pairedItems, .here, other, isRecorded, ?_⟩
    rintro link inside item ⟨next, isNext, ends⟩
    -- A link that ends at an item would keep the list from ending nowhere.
    have isEnding : endings link = .item item := (each link inside next isNext).unique ends
    have member : .item item ∈ pairedItems.map endings := isEnding ▸ List.mem_map_of_mem inside
    rcases together_cases (pairedItems.map endings) with ⟨_, allFailed⟩ | ⟨first, _, _, isFirst, same⟩ | ⟨failed, _⟩
    · cases allFailed _ member
    · obtain rfl := isFirst.symm.trans isNowhere
      rcases same _ member with failed | nowhere
      · cases failed
      · cases nowhere
    · rw [failed] at isNowhere
      cases isNowhere

/-- Whatever the walk ends with is right exactly if the recorded links can be resolved. -/
theorem sound_iff_resolvable (ends : proxy.Ends destinationNodeName source pairedItem (.of result)) :
    proxy.Sound destinationNodeName source pairedItem result ↔
      proxy.Resolvable destinationNodeName source pairedItem := by
  constructor
  · rintro ⟨returned, unambiguous⟩
    have somewhere : Ending.of result ≠ .nowhere := by
      intro nowhere
      obtain ⟨_, isItem, _⟩ := returned none (Ending.of_eq_nowhere nowhere)
      cases isItem
    constructor
    case index =>
      intro last lastItem items comes isDestination output
      by_contra negative
      have isEnding := (comes.ends_last ends).unique (.arrived isDestination)
      have inside : ¬ lastItem.item ≥ (items.length : Int) := by omega
      rw [itemAtDestination_some output, if_neg inside,
        (at?_of_lt (Int.not_le.mp inside)).mpr (Int.not_le.mp negative)] at isEnding
      exact somewhere isEnding
    case list =>
      intro last lastItem pairedItems comes other isRecorded
      obtain ⟨endings, isEnding, each⟩ := (comes.ends_last ends).of_list other isRecorded
      rcases together_cases (pairedItems.map endings) with ⟨nowhere, _⟩ | ⟨first, isFirst, notFailed, same, _⟩ |
        ⟨_, first, isFirst, second, isSecond, notFailed, notFailed', different⟩
      · exact absurd (isEnding.symm.trans nowhere) somewhere
      · obtain ⟨link, inside, ends'⟩ := each.ends isFirst notFailed
        have isResult : Ending.of result = first := isEnding.symm.trans same
        cases first with
        | failed => exact absurd rfl notFailed
        | nowhere => exact absurd isResult somewhere
        | item item =>
          refine ⟨link, inside, item, ends', .inl fun other' inside' item' leads' => ?_⟩
          by_contra differs
          obtain ⟨error, rfl⟩ := unambiguous last lastItem pairedItems comes other isRecorded other' inside' link inside
            item' item leads' ends'.leads differs
          cases isResult
      · obtain ⟨link, inside, ends'⟩ := each.ends isFirst notFailed
        obtain ⟨link', inside', ends''⟩ := each.ends isSecond notFailed'
        cases first with
        | failed => exact absurd rfl notFailed
        | item item => exact ⟨link, inside, item, ends',
          .inr ⟨link', inside', second, ends'', notFailed', Ne.symm different⟩⟩
        | nowhere =>
          cases second with
          | failed => exact absurd rfl notFailed'
          | nowhere => exact absurd rfl different
          | item item => exact ⟨link', inside', item, ends'',
            .inr ⟨link, inside, .nowhere, ends', notFailed, different⟩⟩
  · rintro ⟨index, list⟩
    constructor
    case returned =>
      rintro found rfl
      cases found with
      | some item => exact ⟨item, rfl, ends.leads rfl⟩
      | none =>
        rcases ends.nowhere rfl with ⟨last, lastItem, items, comes, isDestination, output, negative⟩ |
          ⟨last, lastItem, pairedItems, comes, other, isRecorded, none_⟩
        · exact absurd negative (Int.not_lt.mpr (index last lastItem items comes isDestination output))
        · obtain ⟨link, inside, item, ends', _⟩ := list last lastItem pairedItems comes other isRecorded
          exact absurd ends' (none_ link inside item)
    case unambiguous =>
      intro last lastItem pairedItems comes other isRecorded link inside link' inside' item item' leads leads' different
      obtain ⟨first, isFirst, found, ends', same | ⟨second, isSecond, ending, ends'', notFailed, differs⟩⟩ :=
        list last lastItem pairedItems comes other isRecorded
      · exact absurd ((same link inside item leads).trans (same link' inside' item' leads').symm) different
      · -- Two links end in different ways, and neither fails.
        obtain ⟨endings, isEnding, each⟩ := (comes.ends_last ends).of_list other isRecorded
        have member : .item found ∈ pairedItems.map endings := each.eq isFirst ends' ▸ List.mem_map_of_mem isFirst
        have member' : ending ∈ pairedItems.map endings := each.eq isSecond ends'' ▸ List.mem_map_of_mem isSecond
        rcases together_cases (pairedItems.map endings) with ⟨_, allFailed⟩ | ⟨_, _, _, _, same⟩ | ⟨failed, _⟩
        · exact absurd (allFailed _ member') notFailed
        · have isItem := (same _ member).resolve_left (by simp)
          have isOther := (same _ member').resolve_left notFailed
          exact absurd (isOther.trans isItem.symm) differs
        · exact Ending.of_eq_failed (isEnding.symm.trans failed)

end

/-- If tasks come from tasks that were executed earlier, the walk ends, and what it returns is right exactly if the recorded
links can be resolved. -/
theorem getPairedItem_sound_iff (proxy : WorkflowDataProxy Item) (executionIndex : String → Nat → Nat)
    (inOrder : ExecutedInOrder proxy executionIndex) (destinationNodeName : String)
    (incomingSourceData : Option ISourceData) (pairedItem : IPairedItemData) (usedMethodName : UsedMethodName) :
    ∃ result, (∃ turns, ∀ fuel ≥ turns,
        proxy.getPairedItem fuel destinationNodeName incomingSourceData pairedItem usedMethodName = some result) ∧
      (proxy.Sound destinationNodeName (pairedItem.sourceOverwrite <|> incomingSourceData) pairedItem result ↔
        proxy.Resolvable destinationNodeName (pairedItem.sourceOverwrite <|> incomingSourceData) pairedItem) := by
  let walk := Walk.start incomingSourceData pairedItem
  obtain ⟨result, found⟩ := @findItem_returns _ proxy destinationNodeName usedMethodName _ _ inOrder
    (turnsLeft executionIndex walk.sourceData + 1) walk (Nat.lt_succ_self _)
  exact ⟨result, ⟨_, fun fuel enough => findItem_mono found enough⟩, sound_iff_resolvable (ends_of_findItem found)⟩

end

end

/-! A node makes an item of the trigger's item, and another one of an item that the trigger does not have. -/

namespace UnresolvedList

def fromNode (previousNode : String) : ISourceData :=
    { previousNode, previousNodeOutput := none, previousNodeRun := none }

def ran (items : List Nat) (source : List (Option ISourceData)) : TaskData Nat :=
  { data := some (OrderedMap.set ∅ .main [.full items]), source }

/-- The items are numbered; item 0 is that of the trigger. -/
def proxy : WorkflowDataProxy Nat where
  mode := .trigger
  pinData := ∅
  runData := some ((OrderedMap.set ∅ "Trigger" [ran [0] []]).set "Code" [ran [1, 2] [some (fromNode "Trigger")]])
  pairedItem
    | 1 => some (.number 0)
    | 2 => some (.list [{ item := 3 }])
    | _ => none

def executionIndex (nodeName : String) (_ : Nat) : Nat := if nodeName = "Code" then 1 else 0

theorem taskDataOf_cases (sourceData : ISourceData) : proxy.taskDataOf sourceData = none ∨
    (sourceData.previousNode = "Code" ∧ proxy.taskDataOf sourceData = some (ran [1, 2] [some (fromNode "Trigger")])) ∨
    (sourceData.previousNode = "Trigger" ∧ proxy.taskDataOf sourceData = some (ran [0] [])) := by
  have runs : proxy.taskDataOf sourceData = (((OrderedMap.set ∅ "Trigger" [ran [0] []]).set "Code"
      [ran [1, 2] [some (fromNode "Trigger")]]).get? sourceData.previousNode).bind fun runs =>
        runs[sourceData.previousNodeRun.getD 0]? := rfl
  rw [runs]
  cases sourceData.previousNodeRun.getD 0 <;>
    by_cases code : sourceData.previousNode = "Code" <;> by_cases trigger : sourceData.previousNode = "Trigger" <;>
      simp [OrderedMap.get?_set, code, trigger]

theorem inOrder : ExecutedInOrder proxy executionIndex where
  source := by
    intro sourceData previous inside
    unfold sourceOf at inside
    rcases taskDataOf_cases sourceData with none_ | ⟨isCode, found⟩ | ⟨_, found⟩
    · rw [none_] at inside
      cases inside
    · rw [found] at inside
      obtain rfl := Option.some.inj (List.mem_singleton.mp inside)
      simp [executionIndex, fromNode, isCode]
    · rw [found] at inside
      cases inside
  sourceOverwrite := by
    intro sourceData item _ recorded isRecorded link isLink previous isPrevious
    -- No link of these items says where it comes from.
    have none_ : link.sourceOverwrite = none := by
      unfold proxy at isRecorded
      dsimp only at isRecorded
      split at isRecorded
      · obtain rfl := Option.some.inj isRecorded
        obtain rfl := List.mem_singleton.mp isLink
        rfl
      · obtain rfl := Option.some.inj isRecorded
        obtain rfl := List.mem_singleton.mp isLink
        rfl
      · cases isRecorded
    rw [none_] at isPrevious
    cases isPrevious

theorem number_found :
    (∀ fuel ≥ 2, proxy.getPairedItem fuel "Trigger" (some (fromNode "Code")) { item := 0 } .pairedItem =
      some (.ok (some 0))) ∧
    ∃ result, (∃ turns, ∀ fuel ≥ turns,
        proxy.getPairedItem fuel "Trigger" (some (fromNode "Code")) { item := 0 } .pairedItem = some result) ∧
      (proxy.Sound "Trigger" (some (fromNode "Code")) { item := 0 } result ↔
        proxy.Resolvable "Trigger" (some (fromNode "Code")) { item := 0 }) :=
  ⟨fun _ enough => findItem_mono rfl enough,
    getPairedItem_sound_iff proxy executionIndex inOrder "Trigger" (some (fromNode "Code")) { item := 0 } .pairedItem⟩

theorem list_not_sound : ExecutedInOrder proxy executionIndex ∧
    (∀ fuel ≥ 2, proxy.getPairedItem fuel "Trigger" (some (fromNode "Code")) { item := 1 } .pairedItem =
      some (.ok none)) ∧
    ¬ proxy.Sound "Trigger" (some (fromNode "Code")) { item := 1 } (.ok none) := by
  refine ⟨inOrder, fun fuel enough => findItem_mono rfl enough, ?_⟩
  intro sound
  obtain ⟨item, isItem, _⟩ := sound.returned none rfl
  cases isItem

end UnresolvedList

end N8n.WorkflowDataProxy
