import Mathlib.Data.List.Chain
import N8n.Core.GetSourceDataGroups

/-! # What the groups are

`getSourceDataGroups` in
`get-source-data-groups.ts`
looks at the input index, the source and the data of a connection only.  Here it
is stated over these alone, with any integer for an input index.  The groups
partition the connections, and those with data come first.
-/

namespace N8n.Core

structure SourceGroup (κ : Type) where
  complete : Bool
  connections : List κ

namespace SourceGroup

variable {κ : Type}

def new : SourceGroup κ := ⟨true, []⟩

/-- `connection1` does not come after `connection2`. -/
def sortByInputIndexThenByName (localeCompare : String → String → Ordering) (inputIndex : κ → Int)
    (name : κ → String) (connection1 connection2 : κ) : Prop :=
  if inputIndex connection1 = inputIndex connection2 then
    localeCompare (name connection1) (name connection2) ≠ .gt
  else inputIndex connection1 - inputIndex connection2 ≤ 0

instance (localeCompare : String → String → Ordering) (inputIndex : κ → Int) (name : κ → String) :
    DecidableRel (sortByInputIndexThenByName localeCompare inputIndex name) := fun _ _ =>
  inferInstanceAs (Decidable (ite _ _ _))

def minInputIndex (inputIndex : κ → Int) (connections : List κ) : Int :=
  ((connections.map inputIndex).min?).getD 0

/-- The `while` loop, which takes the first connection that `findIndex` finds out of its list.  It is `none` when it
does not come to its end. -/
def collect (inputIndex : κ → Int) : Nat → List κ → List κ → SourceGroup κ → Int → Option (List (SourceGroup κ))
  | 0, _, _, _, _ => none
  | fuel + 1, withData, withoutData, currentGroup, currentInputIndex =>
    if withData.isEmpty && withoutData.isEmpty then some [currentGroup]
    else
      match withData.find? (inputIndex · = currentInputIndex) with
      | some connection =>
        collect inputIndex fuel (withData.eraseP (inputIndex · = currentInputIndex)) withoutData
          { currentGroup with connections := currentGroup.connections ++ [connection] } (currentInputIndex + 1)
      | none =>
        match withoutData.find? (inputIndex · = currentInputIndex) with
        | some connection =>
          collect inputIndex fuel withData (withoutData.eraseP (inputIndex · = currentInputIndex))
            { complete := false, connections := currentGroup.connections ++ [connection] } (currentInputIndex + 1)
        | none =>
          (collect inputIndex fuel withData withoutData new (minInputIndex inputIndex (withData ++ withoutData))).map
            (currentGroup :: ·)

def ofConnections (localeCompare : String → String → Ordering) (inputIndex : κ → Int) (name : κ → String)
    (hasData : κ → Bool) (connections : List κ) : Option (List (SourceGroup κ)) :=
  if connections.isEmpty then some []
  else
    let sorted := fun connections : List κ =>
      connections.insertionSort (sortByInputIndexThenByName localeCompare inputIndex name)
    collect inputIndex (2 * connections.length + 1) (sorted (connections.filter hasData))
      (sorted (connections.filter (!hasData ·))) new (minInputIndex inputIndex connections)

/-! ## The partition -/

variable (inputIndex : κ → Int) (hasData : κ → Bool)

/-- Of two connections for one input, the first one has data if the second one has. -/
def DataFirst (first second : κ) : Prop :=
  inputIndex first = inputIndex second → hasData second = true → hasData first = true

structure IsGroup (group : SourceGroup κ) : Prop where
  nonempty : group.connections ≠ []
  consecutive : (group.connections.map inputIndex).IsChain fun index next => next = index + 1
  complete_iff : group.complete = true ↔ ∀ connection ∈ group.connections, hasData connection = true

/-- Every connection is in one group, and in the order of the groups those with data come first for each input. -/
structure Partitions (connections : List κ) (groups : List (SourceGroup κ)) : Prop where
  perm : (groups.flatMap (·.connections)).Perm connections
  isGroup : ∀ group ∈ groups, group.IsGroup inputIndex hasData
  dataFirst : (groups.flatMap (·.connections)).Pairwise (DataFirst inputIndex hasData)

/-- What holds of the lists and the current group in every turn of the loop. -/
structure Collecting (withData withoutData : List κ) (currentGroup : SourceGroup κ) (currentInputIndex : Int) :
    Prop where
  haveData : ∀ connection ∈ withData, hasData connection = true
  haveNone : ∀ connection ∈ withoutData, hasData connection = false
  consecutive : (currentGroup.connections.map inputIndex ++ [currentInputIndex]).IsChain fun index next =>
    next = index + 1
  complete_iff : currentGroup.complete = true ↔ ∀ connection ∈ currentGroup.connections, hasData connection = true
  dataFirst : currentGroup.connections.Pairwise (DataFirst inputIndex hasData)
  /-- No connection with data is left for an input that was given one without. -/
  passed : ∀ connection ∈ currentGroup.connections, hasData connection = false → ∀ other ∈ withData,
    inputIndex other ≠ inputIndex connection
  /-- The group is not empty or gets a connection in this turn. -/
  fills : currentGroup.connections ≠ [] ∨
    ∃ connection ∈ withData ++ withoutData, inputIndex connection = currentInputIndex

variable {inputIndex hasData} {withData withoutData : List κ} {currentGroup : SourceGroup κ} {currentInputIndex : Int}

theorem eraseP_of_find? {property : κ → Bool} {connections : List κ} {found : κ}
    (isFound : connections.find? property = some found) :
    ∃ before after, connections = before ++ found :: after ∧ connections.eraseP property = before ++ after := by
  obtain ⟨holds, before, after, rfl, others⟩ := List.find?_eq_some_iff_append.mp isFound
  refine ⟨before, after, rfl, ?_⟩
  rw [List.eraseP_append_right _ fun other member => by simpa using others other member,
    List.eraseP_cons_of_pos holds]

theorem perm_eraseP_of_find? {property : κ → Bool} {connections : List κ} {found : κ}
    (isFound : connections.find? property = some found) :
    (found :: connections.eraseP property).Perm connections := by
  obtain ⟨before, after, rfl, erased⟩ := eraseP_of_find? isFound
  rw [erased]
  exact List.perm_middle.symm

theorem exists_inputIndex_eq_min {connections : List κ} (notEmpty : connections ≠ []) :
    ∃ connection ∈ connections, inputIndex connection = minInputIndex inputIndex connections := by
  rw [minInputIndex]
  cases least : (connections.map inputIndex).min? with
  | none => simp [notEmpty] at least
  | some index =>
    obtain ⟨connection, inside, equal⟩ := List.mem_map.mp (List.min?_eq_some_iff.mp least).1
    exact ⟨connection, inside, equal⟩

variable {connection : κ}

theorem Collecting.consecutive_snoc
    (collecting : Collecting inputIndex hasData withData withoutData currentGroup currentInputIndex)
    (isCurrent : inputIndex connection = currentInputIndex) :
    ((currentGroup.connections ++ [connection]).map inputIndex ++ [currentInputIndex + 1]).IsChain
      fun index next => next = index + 1 := by
  rw [List.map_append, List.map_singleton, isCurrent, List.append_assoc, List.singleton_append]
  apply List.isChain_split.mpr
  exact ⟨collecting.consecutive, by simp⟩

theorem Collecting.takeWithData
    (collecting : Collecting inputIndex hasData withData withoutData currentGroup currentInputIndex)
    (found : withData.find? (inputIndex · = currentInputIndex) = some connection) :
    Collecting inputIndex hasData (withData.eraseP (inputIndex · = currentInputIndex)) withoutData
      { currentGroup with connections := currentGroup.connections ++ [connection] } (currentInputIndex + 1) := by
  have member := List.mem_of_find?_eq_some found
  have isCurrent : inputIndex connection = currentInputIndex := by simpa using List.find?_some found
  have has := collecting.haveData connection member
  refine ⟨fun other inRest => collecting.haveData other (List.mem_of_mem_eraseP inRest), collecting.haveNone,
    collecting.consecutive_snoc isCurrent, ?_, ?_, ?_, Or.inl (by simp)⟩
  · show currentGroup.complete = true ↔ ∀ other ∈ currentGroup.connections ++ [connection], hasData other = true
    rw [List.forall_mem_append, List.forall_mem_singleton, collecting.complete_iff]
    exact ⟨fun all => ⟨all, has⟩, And.left⟩
  · rw [List.pairwise_append]
    refine ⟨collecting.dataFirst, List.pairwise_singleton _ _, fun other inGroup last isLast same _ => ?_⟩
    obtain rfl := List.mem_singleton.mp isLast
    by_contra hasNone
    exact collecting.passed other inGroup (Bool.not_eq_true _ ▸ hasNone) last member same.symm
  · intro other inGroup hasNone rest inRest
    obtain old | isLast := List.mem_append.mp inGroup
    · exact collecting.passed other old hasNone rest (List.mem_of_mem_eraseP inRest)
    · obtain rfl := List.mem_singleton.mp isLast
      simp [has] at hasNone

theorem Collecting.takeWithoutData
    (collecting : Collecting inputIndex hasData withData withoutData currentGroup currentInputIndex)
    (noneLeft : withData.find? (inputIndex · = currentInputIndex) = none)
    (found : withoutData.find? (inputIndex · = currentInputIndex) = some connection) :
    Collecting inputIndex hasData withData (withoutData.eraseP (inputIndex · = currentInputIndex))
      { complete := false, connections := currentGroup.connections ++ [connection] } (currentInputIndex + 1) := by
  have member := List.mem_of_find?_eq_some found
  have isCurrent : inputIndex connection = currentInputIndex := by simpa using List.find?_some found
  have has := collecting.haveNone connection member
  refine ⟨collecting.haveData, fun other inRest => collecting.haveNone other (List.mem_of_mem_eraseP inRest),
    collecting.consecutive_snoc isCurrent, ?_, ?_, ?_, Or.inl (by simp)⟩
  · simp [has]
  · rw [List.pairwise_append]
    refine ⟨collecting.dataFirst, List.pairwise_singleton _ _, fun other inGroup last isLast _ hasSome => ?_⟩
    obtain rfl := List.mem_singleton.mp isLast
    simp [has] at hasSome
  · intro other inGroup hasNone rest inRest
    obtain old | isLast := List.mem_append.mp inGroup
    · exact collecting.passed other old hasNone rest inRest
    · obtain rfl := List.mem_singleton.mp isLast
      rw [isCurrent]
      simpa using List.find?_eq_none.mp noneLeft rest inRest

theorem Collecting.startGroup (collecting : Collecting inputIndex hasData withData withoutData currentGroup
    currentInputIndex) (someLeft : withData ++ withoutData ≠ []) :
    Collecting inputIndex hasData withData withoutData new (minInputIndex inputIndex (withData ++ withoutData)) := by
  refine ⟨collecting.haveData, collecting.haveNone, by simp [new], by simp [new], by simp [new], ?_,
    Or.inr (exists_inputIndex_eq_min someLeft)⟩
  intro other inGroup
  cases inGroup

theorem collect_spec (fuel : Nat) : ∀ (withData withoutData : List κ) (currentGroup : SourceGroup κ)
    (currentInputIndex : Int),
    (2 * (withData ++ withoutData).length < fuel ∨ 2 * (withData ++ withoutData).length ≤ fuel ∧
      ∃ connection ∈ withData ++ withoutData, inputIndex connection = currentInputIndex) →
    Collecting inputIndex hasData withData withoutData currentGroup currentInputIndex →
    ∃ groups, collect inputIndex fuel withData withoutData currentGroup currentInputIndex = some groups ∧
      Partitions inputIndex hasData (currentGroup.connections ++ (withData ++ withoutData)) groups := by
  induction fuel with
  | zero =>
    intro withData withoutData currentGroup currentInputIndex enough _
    obtain less | ⟨least, connection, member, _⟩ := enough
    · omega
    · have := List.length_pos_of_mem member
      omega
  | succ fuel ih =>
    intro withData withoutData currentGroup currentInputIndex enough collecting
    rw [collect]
    split
    next noneLeft =>
      simp only [Bool.and_eq_true, List.isEmpty_iff] at noneLeft
      obtain ⟨rfl, rfl⟩ := noneLeft
      have isGroup : currentGroup.IsGroup inputIndex hasData :=
        ⟨collecting.fills.resolve_right (by simp), collecting.consecutive.left_of_append, collecting.complete_iff⟩
      exact ⟨[currentGroup], rfl, by simp, by simpa using isGroup, by simpa using collecting.dataFirst⟩
    next someLeft =>
      cases foundWith : withData.find? (inputIndex · = currentInputIndex) with
      | some connection =>
        have split := perm_eraseP_of_find? foundWith
        have shorter := split.length_eq
        simp only [List.length_cons, List.length_append] at enough shorter
        obtain ⟨groups, returns, partitions⟩ := ih _ _ _ _
          (Or.inl (by simp only [List.length_append]; omega)) (collecting.takeWithData foundWith)
        refine ⟨groups, returns, partitions.perm.trans ?_, partitions.isGroup, partitions.dataFirst⟩
        simp only [List.append_assoc, List.singleton_append]
        exact List.Perm.append_left _ (split.append_right _)
      | none =>
        cases foundWithout : withoutData.find? (inputIndex · = currentInputIndex) with
        | some connection =>
          have split := perm_eraseP_of_find? foundWithout
          have shorter := split.length_eq
          simp only [List.length_cons, List.length_append] at enough shorter
          obtain ⟨groups, returns, partitions⟩ := ih _ _ _ _
            (Or.inl (by simp only [List.length_append]; omega)) (collecting.takeWithoutData foundWith foundWithout)
          refine ⟨groups, returns, partitions.perm.trans ?_, partitions.isGroup, partitions.dataFirst⟩
          simp only [List.append_assoc, List.singleton_append]
          exact List.Perm.append_left _ (List.perm_middle.symm.trans (split.append_left _))
        | none =>
          have noneHere : ¬∃ connection ∈ withData ++ withoutData, inputIndex connection = currentInputIndex := by
            rintro ⟨connection, member, isCurrent⟩
            obtain inWith | inWithout := List.mem_append.mp member
            · exact List.find?_eq_none.mp foundWith connection inWith (decide_eq_true isCurrent)
            · exact List.find?_eq_none.mp foundWithout connection inWithout (decide_eq_true isCurrent)
          have less := enough.resolve_right fun least => noneHere least.2
          have notEmpty : withData ++ withoutData ≠ [] := by
            intro isEmpty
            obtain ⟨rfl, rfl⟩ := List.append_eq_nil_iff.mp isEmpty
            simp at someLeft
          obtain ⟨groups, returns, partitions⟩ := ih _ _ _ _
            (Or.inr ⟨by omega, exists_inputIndex_eq_min notEmpty⟩) (collecting.startGroup notEmpty)
          have isGroup : currentGroup.IsGroup inputIndex hasData :=
            ⟨collecting.fills.resolve_right noneHere, collecting.consecutive.left_of_append, collecting.complete_iff⟩
          have samePerm : (groups.flatMap (·.connections)).Perm (withData ++ withoutData) := partitions.perm
          refine ⟨currentGroup :: groups, by simp [returns], ?_, ?_, ?_⟩
          · rw [List.flatMap_cons]
            exact List.Perm.append_left _ samePerm
          · intro group member
            obtain rfl | later := List.mem_cons.mp member
            · exact isGroup
            · exact partitions.isGroup group later
          · rw [List.flatMap_cons, List.pairwise_append]
            refine ⟨collecting.dataFirst, partitions.dataFirst, fun other inGroup last later same hasSome => ?_⟩
            have inWith : last ∈ withData := by
              obtain inWith | inWithout := List.mem_append.mp (samePerm.mem_iff.mp later)
              · exact inWith
              · simp [collecting.haveNone last inWithout] at hasSome
            by_contra hasNone
            exact collecting.passed other inGroup (Bool.not_eq_true _ ▸ hasNone) last inWith same.symm

/-- The loop comes to its end, and its groups partition the connections into the node. -/
theorem ofConnections_partitions (localeCompare : String → String → Ordering) (inputIndex : κ → Int)
    (name : κ → String) (hasData : κ → Bool) (connections : List κ) :
    ∃ groups, ofConnections localeCompare inputIndex name hasData connections = some groups ∧
      Partitions inputIndex hasData connections groups := by
  rw [ofConnections]
  split
  next isEmpty =>
    obtain rfl := List.isEmpty_iff.mp isEmpty
    exact ⟨[], rfl, List.Perm.refl _, by simp, List.Pairwise.nil⟩
  next notEmpty =>
    have sorted (keep : κ → Bool) : ((connections.filter keep).insertionSort
        (sortByInputIndexThenByName localeCompare inputIndex name)).Perm (connections.filter keep) :=
      List.perm_insertionSort _ _
    have parts := ((sorted hasData).append (sorted (!hasData ·))).trans (List.filter_append_perm hasData connections)
    obtain ⟨first, member, isLeast⟩ := @exists_inputIndex_eq_min _ inputIndex connections
      (by simpa using notEmpty)
    obtain ⟨groups, returns, partitions⟩ := @collect_spec _ inputIndex hasData (2 * connections.length + 1) _ _ new
      (minInputIndex inputIndex connections) (Or.inl (by rw [parts.length_eq]; omega))
      ⟨fun connection inSorted => (List.mem_filter.mp ((sorted hasData).mem_iff.mp inSorted)).2,
        fun connection inSorted => by simpa using (List.mem_filter.mp ((sorted (!hasData ·)).mem_iff.mp inSorted)).2,
        by simp [new], by simp [new], by simp [new], by simp [new],
        Or.inr ⟨first, parts.mem_iff.mpr member, isLeast⟩⟩
    exact ⟨groups, returns, partitions.perm.trans (by simpa [new] using parts), partitions.isGroup,
      partitions.dataFirst⟩

end SourceGroup

/-! ## The groups of a node of a graph -/

theorem erase_eq_eraseP_of_find? {α : Type} [DecidableEq α] {property : α → Bool} {items : List α} {found : α}
    (isFound : items.find? property = some found) : items.erase found = items.eraseP property := by
  obtain ⟨holds, before, after, rfl, others⟩ := List.find?_eq_some_iff_append.mp isFound
  have notBefore : found ∉ before := by
    intro member
    have := others found member
    simp [holds] at this
  rw [List.erase_append_right _ notBefore, List.erase_cons_head,
    List.eraseP_append_right _ fun other member => by simpa using others other member, List.eraseP_cons_of_pos holds]

theorem cast_minInputIndex (connections : List GraphConnection) :
    SourceGroup.minInputIndex (fun connection : GraphConnection => (connection.inputIndex : Int)) connections =
      (minInputIndex connections : Int) := by
  rw [SourceGroup.minInputIndex, minInputIndex]
  cases least : (connections.map (·.inputIndex)).min? with
  | none =>
    obtain rfl : connections = [] := by simpa using least
    rfl
  | some index =>
    obtain ⟨member, isLeast⟩ := List.min?_eq_some_iff.mp least
    have castLeast : (connections.map fun connection : GraphConnection => (connection.inputIndex : Int)).min? =
        some (index : Int) := by
      apply List.min?_eq_some_iff.mpr
      obtain ⟨connection, inside, isIndex⟩ := List.mem_map.mp member
      refine ⟨List.mem_map.mpr ⟨connection, inside, congrArg Int.ofNat isIndex⟩, fun other isOther => ?_⟩
      obtain ⟨another, inside, rfl⟩ := List.mem_map.mp isOther
      exact Int.ofNat_le.mpr (isLeast _ (List.mem_map_of_mem inside))
    rw [castLeast]
    rfl

theorem collectGroups_eq (fuel : Nat) : ∀ (withData withoutData : List GraphConnection)
    (currentGroup : SourceConnectionGroup) (inputIndex : Nat) (groups : List (SourceGroup GraphConnection)),
    SourceGroup.collect (fun connection => (connection.inputIndex : Int)) fuel withData withoutData
        ⟨currentGroup.complete, currentGroup.connections⟩ (inputIndex : Int) = some groups →
      collectGroups fuel withData withoutData currentGroup inputIndex =
        groups.map fun group => ⟨group.complete, group.connections⟩ := by
  induction fuel with
  | zero =>
    intro withData withoutData currentGroup inputIndex groups returns
    cases returns
  | succ fuel ih =>
    intro withData withoutData currentGroup inputIndex groups returns
    have same : (fun connection : GraphConnection => decide ((connection.inputIndex : Int) = (inputIndex : Int))) =
        fun connection => decide (connection.inputIndex = inputIndex) := by
      funext connection
      exact decide_eq_decide.mpr Int.natCast_inj
    rw [SourceGroup.collect, same] at returns
    rw [collectGroups]
    split at returns
    next noneLeft =>
      cases returns
      rw [if_pos noneLeft]
      rfl
    next someLeft =>
      rw [if_neg someLeft]
      cases foundWith : withData.find? (·.inputIndex = inputIndex) with
      | some connection =>
        simp only [foundWith] at returns
        rw [← erase_eq_eraseP_of_find? foundWith] at returns
        exact ih _ _ { currentGroup with
          connections := currentGroup.connections ++ [connection] } (inputIndex + 1) groups returns
      | none =>
        cases foundWithout : withoutData.find? (·.inputIndex = inputIndex) with
        | some connection =>
          simp only [foundWith, foundWithout] at returns
          rw [← erase_eq_eraseP_of_find? foundWithout] at returns
          exact ih _ _ { complete := false, connections := currentGroup.connections ++ [connection] }
            (inputIndex + 1) groups returns
        | none =>
          simp only [foundWith, foundWithout, cast_minInputIndex] at returns
          obtain ⟨rest, restReturns, rfl⟩ := Option.map_eq_some_iff.mp returns
          have later := ih _ _ newGroup _ rest restReturns
          simp only [later, List.map_cons]

theorem insertionSort_congr {α : Type} {first second : α → α → Prop} [DecidableRel first] [DecidableRel second]
    (same : first = second) (items : List α) : items.insertionSort first = items.insertionSort second := by
  subst same
  congr

variable {Item : Type}

def hasSourceData (runData : IRunData Item) (pinnedData : IPinData Item) (nodeName : String) : Bool :=
  runData.has nodeName || pinnedData.has nodeName

theorem getSourceDataGroups_eq (localeCompare : String → String → Ordering) (graph : DirectedGraph) (node : INode)
    (runData : IRunData Item) (pinnedData : IPinData Item) {groups : List (SourceGroup GraphConnection)}
    (returns : SourceGroup.ofConnections localeCompare (fun connection => (connection.inputIndex : Int))
      (·.from.name) (fun connection => hasSourceData runData pinnedData connection.from.name)
      (graph.getConnections (some node)) = some groups) :
    getSourceDataGroups localeCompare graph node runData pinnedData =
      groups.map fun group => ⟨group.complete, group.connections⟩ := by
  have sameSort : SourceGroup.sortByInputIndexThenByName localeCompare
      (fun connection : GraphConnection => (connection.inputIndex : Int)) (·.from.name) =
        sortByInputIndexThenByName localeCompare := by
    funext first second
    simp only [SourceGroup.sortByInputIndexThenByName, sortByInputIndexThenByName, Int.natCast_inj]
    split
    next => rfl
    next => exact propext (by omega)
  rw [SourceGroup.ofConnections] at returns
  rw [getSourceDataGroups]
  dsimp only
  split at returns
  next isEmpty =>
    cases returns
    rw [if_pos isEmpty]
    rfl
  next notEmpty =>
    rw [if_neg notEmpty]
    apply collectGroups_eq
    rw [← cast_minInputIndex, ← insertionSort_congr sameSort, ← insertionSort_congr sameSort]
    exact returns

theorem partitions_getSourceDataGroups (localeCompare : String → String → Ordering) (graph : DirectedGraph)
    (node : INode) (runData : IRunData Item) (pinnedData : IPinData Item) :
    SourceGroup.Partitions (fun connection => (connection.inputIndex : Int))
      (fun connection => hasSourceData runData pinnedData connection.from.name) (graph.getConnections (some node))
      ((getSourceDataGroups localeCompare graph node runData pinnedData).map fun group =>
        ⟨group.complete, group.connections⟩) := by
  obtain ⟨groups, returns, partitions⟩ := SourceGroup.ofConnections_partitions localeCompare
    (fun connection : GraphConnection => (connection.inputIndex : Int)) (·.from.name)
    (fun connection => hasSourceData runData pinnedData connection.from.name) (graph.getConnections (some node))
  rw [getSourceDataGroups_eq localeCompare graph node runData pinnedData returns, List.map_map]
  simpa [Function.comp_def] using partitions

end N8n.Core
