import N8n.NodeParameters.SaveParameters

/-! # Saving and reloading the parameters of a node

A node gets its defaults back when it is loaded.  What is lost between a save and
the next load can be a value that decides what is displayed, or a value of a fixed
collection.
-/

namespace N8n.NodeHelpers

open NodeParameterValueType

variable {Number : Type} [DecidableEq Number] [Zero Number]

section

variable (runtime : DisplayRuntime Number) (node : Option Number)

/-! ## When a reload shows what was there before the save -/

def itemsOf (multipleValues : Option Bool) (propertyValues : NodeParameterValueType Number) (itemName : String) :
    List (NodeParameterValueType Number) :=
  if multipleValues = some true then
    match iterate (propertyValues.get itemName) with
    | .ok items => items
    | .error _ => []
  else [propertyValues.get itemName]

def OptionShows (head : PropertyHead Number) (multipleValues : Option Bool)
    (options : List (String × List (INodeProperties Number))) (value root : NodeParameterValueType Number)
    (itemName : String) : Prop :=
  ∃ option, findOption head multipleValues options itemName = some option ∧
    ShowsSomething runtime node option.1 (value.get itemName) root

def OptionKeeps (head : PropertyHead Number) (multipleValues : Option Bool)
    (options : List (String × List (INodeProperties Number))) (value root : NodeParameterValueType Number)
    (itemName : String) : Prop :=
  ∃ option, findOption head multipleValues options itemName = some option ∧
    KeepsSomething runtime node option.1 (value.get itemName) (some root) (some .fixedCollection)

/-- No item of a fixed collection gets lost, and none that a default value would bring is missing.  An option that can
be set multiple times keeps its items.  Of the others every one that shows something has to keep something, unless
none does and the collection is declared to allow one value. -/
def KeepsItems (head : PropertyHead Number) (multipleValues : Option Bool)
    (options : List (String × List (INodeProperties Number))) (value root : NodeParameterValueType Number)
    (parentType : Option ParentType) : Prop :=
  let shows := OptionShows runtime node head multipleValues options value root
  let keeps := OptionKeeps runtime node head multipleValues options value root
  if multipleValues = some true then
    value.keys ≠ [] ∨ parentType ≠ some .collection ∧ head.default.keys = []
  else
    (∃ itemName ∈ value.keys, keeps itemName) ∧ (∀ itemName ∈ value.keys, shows itemName → keeps itemName) ∨
    (∀ itemName ∈ value.keys, ¬ keeps itemName) ∧
      (multipleValues = some false ∧ value.isPlainObject ∧ value.keys ≠ [] ∨
        (∀ itemName ∈ value.keys, ¬ shows itemName) ∧ parentType ≠ some .collection ∧
          ∀ itemName ∈ head.default.keys, findOption head multipleValues options itemName = none)

/-- The item of an option comes back from what a save leaves: nothing is saved by itself, or something of the item is.
An empty object stands in for an item of which nothing is left when the collection is declared to allow one value. -/
def ComesBack (asIs : Bool) (head : PropertyHead Number) (multipleValues : Option Bool)
    (options : List (String × List (INodeProperties Number))) (value root : NodeParameterValueType Number)
    (itemName : String) : Prop :=
  asIs = true ∨ value = undefined ∨ multipleValues = some true ∨
    OptionKeeps runtime node head multipleValues options value root itemName ∨
    multipleValues = some false ∧ value.isPlainObject ∧
      ∀ other ∈ value.keys, ¬ OptionKeeps runtime node head multipleValues options value root other

/-- On this level and on those inside it the values that a save leaves out decide nothing: what is displayed stays the
same without them, and no item of a fixed collection depends on them.  The root values are those before the save and
after the reload; `whole` says that a level above is saved as it is. -/
inductive Stable : List (INodeProperties Number) → NodeParameterValueType Number →
    Option (NodeParameterValueType Number) → Option (NodeParameterValueType Number) → Bool → Option ParentType →
    Prop where
  | nothing {list nodeValues root root' whole parentType}
      (falsy : nodeValues.isTruthy = false)
      (empty : whole = true ∨ parentType = some .collection ∨ ∃ check,
        displayValues runtime node list (.object []) root' parentType = .ok check ∧
          ∀ property ∈ list, displays runtime node check root' property = .ok false) :
      Stable list nodeValues root root' whole parentType
  | level {list nodeValues root root' whole parentType check check' asIs left}
      (truthy : nodeValues.isTruthy)
      (checked : displayValues runtime node list nodeValues root parentType = .ok check)
      (isAsIs : asIs = (whole || savesWhole runtime node list nodeValues check root))
      (isLeft : left = if asIs then nodeValues else keptValues runtime node list nodeValues check root parentType)
      (checked' : displayValues runtime node list left root' parentType = .ok check')
      (alike : ∀ property ∈ list, parentType ≠ some .collection ∨ left.get property.name ≠ undefined →
        displays runtime node check' root' property = displays runtime node check root property)
      (distinct : asIs = false → ∀ property ∈ list, (∀ head type, property ≠ .simple head type) →
        nodeValues.get property.name ≠ undefined → displays runtime node check root property = .ok true →
          check'.get? property.name = none ∧ ∀ other ∈ list, other.name = property.name →
            displays runtime node check root other = .ok true → other = property)
      (marked : asIs = false → parentType ≠ some .collection → ∀ head, .simple head .resourceLocator ∈ list →
        displays runtime node check root (.simple head .resourceLocator) = .ok true →
          nodeValues.get head.name = head.default → head.default.isObjectType →
            valueOrDefault .resourceLocator head.default undefined = head.default)
      (collections : ∀ head multipleValues options, .collection head multipleValues options ∈ list →
        displays runtime node check root (.collection head multipleValues options) = .ok true →
          multipleValues ≠ some true → nodeValues.get head.name ≠ undefined →
            Stable options (nodeValues.get head.name) (some (rootValues check root)) (some (rootValues check' root'))
              asIs (some .collection))
      (items : ∀ head multipleValues options, .fixedCollection head multipleValues options ∈ list →
        displays runtime node check root (.fixedCollection head multipleValues options) = .ok true →
          parentType ≠ some .collection ∨ nodeValues.get head.name ≠ undefined →
            let value := nodeValues.get head.name
            let propertyValues := if value = undefined then head.default else value
            ∀ itemName ∈ propertyValues.keys,
              ComesBack runtime node asIs head multipleValues options value (rootValues check root) itemName →
                ∀ option, findOption head multipleValues options itemName = some option →
                  ∀ item ∈ itemsOf multipleValues propertyValues itemName,
                    Stable option.1 item (some (rootValues check root)) (some (rootValues check' root'))
                      (asIs || value = undefined) (some .fixedCollection))
      (kept : asIs = false → ∀ head multipleValues options, .fixedCollection head multipleValues options ∈ list →
        displays runtime node check root (.fixedCollection head multipleValues options) = .ok true →
          nodeValues.get head.name ≠ undefined →
            KeepsItems runtime node head multipleValues options (nodeValues.get head.name) (rootValues check root)
              parentType) :
      Stable list nodeValues root root' whole parentType

section

variable {runtime node}

/-- What `Stable` is there for. -/
def Reloads (list : List (INodeProperties Number)) (nodeValues : NodeParameterValueType Number)
    (root root' : Option (NodeParameterValueType Number)) (whole : Bool) (parentType : Option ParentType) : Prop :=
  ∀ loaded saved, resolveLevel runtime node true list nodeValues root parentType = .ok loaded →
    resolveLevel runtime node false list nodeValues root parentType = .ok saved →
      resolveLevel runtime node true list (if whole then nodeValues else saved) root' parentType = .ok loaded

/-! ### The options of a fixed collection -/

section

variable {head : PropertyHead Number} {multipleValues : Option Bool}
  {options : List (String × List (INodeProperties Number))} {root root' : NodeParameterValueType Number}
  {itemName : String}

def ItemsReload (head : PropertyHead Number) (multipleValues : Option Bool)
    (options : List (String × List (INodeProperties Number))) (root root' : NodeParameterValueType Number)
      (whole : Bool)
    (propertyValues : NodeParameterValueType Number) (itemName : String) : Prop :=
  ∀ option, findOption head multipleValues options itemName = some option →
    ∀ item ∈ itemsOf multipleValues propertyValues itemName,
      @Reloads _ _ _ runtime node option.1 item (some root) (some root') whole (some .fixedCollection)

omit [DecidableEq Number] [Zero Number] in
theorem itemsOf_multiple {propertyValues : NodeParameterValueType Number} {items}
    (multiple : multipleValues = some true) (iterated : iterate (propertyValues.get itemName) = .ok items) :
    itemsOf multipleValues propertyValues itemName = items := by
  rw [itemsOf, if_pos multiple, iterated]

variable {result : Option (NodeParameterValueType Number)}

theorem resolveOption_whole {ownValue propertyValues : NodeParameterValueType Number}
    (own : ownValue ≠ undefined → propertyValues = ownValue)
    (reloads : @ItemsReload _ _ _ runtime node head multipleValues options root root' true propertyValues itemName)
    (returns : resolveOption runtime node true head multipleValues options root ownValue propertyValues itemName =
      .ok result) :
    resolveOption runtime node true head multipleValues options root' ownValue propertyValues itemName =
      .ok result := by
  -- Either each item of the option reloads, or the one item that it has.
  by_cases multiple : multipleValues = some true
  · obtain ⟨items, values, iterated, mapped, rfl⟩ := optionValues_of_multiple multiple returns
    refine resolveOption_of_multiple multiple iterated (Loop.mapM_transfer (fun item member value first => ?_) mapped)
    obtain ⟨option, found, loaded⟩ := arrayValue_inv first
    obtain ⟨saved, saves⟩ := saves_of_loads option.1 _ value _ _ loaded
    rw [arrayValue_of_found item found]
    exact reloads option found item (by rwa [itemsOf_multiple multiple iterated]) value saved loaded saves
  · cases found : findOption head multipleValues options itemName with
    | none =>
      rw [resolveOption, optionValues_of_missing multiple found] at returns ⊢
      exact returns
    | some option =>
      have present := resolveOption_present multiple found returns
      rw [resolveOption_of_single multiple present found] at returns ⊢
      obtain ⟨loaded, first, rest⟩ := Loop.bind_inv returns
      obtain ⟨saved, saves⟩ := saves_of_loads option.1 _ loaded _ _ first
      have member : ownValue.get itemName ∈ itemsOf multipleValues propertyValues itemName := by
        rw [itemsOf, if_neg multiple, own present.1]
        exact List.mem_singleton_self _
      have again := reloads option found _ member loaded saved first saves
      rw [if_pos rfl] at again
      rw [again]
      exact rest

theorem resolveOption_saved_multiple {ownValue propertyValues : NodeParameterValueType Number}
    (multiple : multipleValues = some true)
    (reloads : @ItemsReload _ _ _ runtime node head multipleValues options root root' false propertyValues itemName)
    (returns : resolveOption runtime node true head multipleValues options root ownValue propertyValues itemName =
      .ok result) :
    ∃ saved, resolveOption runtime node false head multipleValues options root ownValue propertyValues itemName =
        .ok (some saved) ∧
      ∀ ownValue' propertyValues', propertyValues'.get itemName = saved →
        resolveOption runtime node true head multipleValues options root' ownValue' propertyValues' itemName =
          .ok result := by
  obtain ⟨items, values, iterated, mapped, rfl⟩ := optionValues_of_multiple multiple returns
  obtain ⟨saved, saves, reloaded⟩ := @Loop.mapM_through _ _ _ _ _
    (arrayValue head multipleValues options
      (fun list _ item => resolveLevel runtime node false list item (some root) (some .fixedCollection)) itemName)
    (arrayValue head multipleValues options
      (fun list _ item => resolveLevel runtime node true list item (some root') (some .fixedCollection)) itemName)
    items values (fun item member value first => by
      obtain ⟨option, found, loaded⟩ := arrayValue_inv first
      obtain ⟨saved, saves⟩ := saves_of_loads option.1 _ value _ _ loaded
      simp only [arrayValue_of_found _ found]
      exact ⟨saved, saves,
        reloads option found item (by rwa [itemsOf_multiple multiple iterated]) value saved loaded saves⟩) mapped
  -- no saved item is `null`
  have kept : saved.filter (· ≠ null) = saved := by
    rw [List.filter_eq_self]
    intro item member
    obtain ⟨source, _, first⟩ := Loop.exists_turn_of_mem_mapM saves member
    obtain ⟨option, _, returned⟩ := arrayValue_inv first
    exact decide_eq_true (resolveLevel_not_nothing returned).2
  refine ⟨.array saved, ?_, fun ownValue' propertyValues' read => ?_⟩
  · rw [resolveOption_of_multiple multiple iterated saves, kept]
  · exact resolveOption_of_multiple multiple (by rw [read]; rfl) reloaded

variable {value : NodeParameterValueType Number}

/-- The item of an option that can be set once is saved when something of it is left. -/
theorem resolveOption_keeps {saved : Option (NodeParameterValueType Number)}
    (single : multipleValues ≠ some true) (present : value ≠ undefined ∧ value ≠ null)
    (saves : resolveOption runtime node false head multipleValues options root value value itemName = .ok saved) :
    saved ≠ none ↔ OptionKeeps runtime node head multipleValues options value root itemName := by
  cases found : findOption head multipleValues options itemName with
  | none =>
    rw [resolveOption, optionValues_of_missing single found] at saves
    obtain rfl := Except.ok.inj saves
    simp [OptionKeeps, found]
  | some option =>
    rw [resolveOption_of_single single present found] at saves
    obtain ⟨tempValue, first, rest⟩ := Loop.bind_inv saves
    have keeps := savesAsKept option.1 first
    obtain rfl := Except.ok.inj rest
    rw [OptionKeeps]
    simp only [found, Option.some.injEq, exists_eq_left', ← keeps]
    by_cases nothing : tempValue.entries = [] <;> simp [nothing]

theorem resolveOption_shows
    (single : multipleValues ≠ some true) (present : value ≠ undefined ∧ value ≠ null)
    (returns : resolveOption runtime node true head multipleValues options root value value itemName = .ok result) :
    result ≠ none ↔ OptionShows runtime node head multipleValues options value root itemName := by
  cases found : findOption head multipleValues options itemName with
  | none =>
    rw [resolveOption, optionValues_of_missing single found] at returns
    obtain rfl := Except.ok.inj returns
    simp [OptionShows, found]
  | some option =>
    rw [resolveOption_of_single single present found] at returns
    obtain ⟨loaded, first, rest⟩ := Loop.bind_inv returns
    have shows := showsSomething_iff first
    obtain rfl := Except.ok.inj rest
    rw [OptionShows]
    simp only [found, Option.some.injEq, exists_eq_left', ← shows]
    by_cases nothing : loaded.entries = [] <;> simp [nothing]

theorem resolveOption_saved_single
    {result saved : Option (NodeParameterValueType Number)} (single : multipleValues ≠ some true)
    (present : value ≠ undefined ∧ value ≠ null)
    (reloads : @ItemsReload _ _ _ runtime node head multipleValues options root root' false value itemName)
    (returns : resolveOption runtime node true head multipleValues options root value value itemName = .ok result)
    (saves : resolveOption runtime node false head multipleValues options root value value itemName = .ok saved)
    {value' : NodeParameterValueType Number} (present' : value' ≠ undefined ∧ value' ≠ null)
    (read : value'.get itemName = saved.getD (.object [])) :
    resolveOption runtime node true head multipleValues options root' value' value' itemName = .ok result := by
  cases found : findOption head multipleValues options itemName with
  | none =>
    rw [resolveOption, optionValues_of_missing single found] at returns ⊢
    exact returns
  | some option =>
    rw [resolveOption_of_single single present found] at returns saves
    rw [resolveOption_of_single single present' found]
    obtain ⟨loaded, first, rest⟩ := Loop.bind_inv returns
    obtain ⟨tempValue, leaves, isSaved⟩ := Loop.bind_inv saves
    have member : value.get itemName ∈ itemsOf multipleValues value itemName := by
      rw [itemsOf, if_neg single]
      exact List.mem_singleton_self _
    have again := reloads option found _ member loaded tempValue first leaves
    rw [if_neg Bool.false_ne_true] at again
    -- An option of which nothing was saved is read as an empty object.
    have isObject : value'.get itemName = .object tempValue.entries := by
      rw [read, ← Except.ok.inj isSaved]
      split
      next none => rw [none]; rfl
      · rfl
    have truthy : (object tempValue.entries : NodeParameterValueType Number).isTruthy = tempValue.isTruthy :=
      (resolveLevel_truthy leaves).symm
    have reread : resolveLevel runtime node true option.1 (.object tempValue.entries) (some root')
        (some .fixedCollection) = .ok loaded :=
      (resolveLevel_withDefaults_congr truthy fun _ => rfl).trans again
    rw [isObject, reread]
    exact rest

omit [DecidableEq Number] [Zero Number] in
theorem map_fst_filterMap (keys : List String) (given : String → Option (NodeParameterValueType Number)) :
    (keys.filterMap fun itemName => (given itemName).map (Prod.mk itemName)).map Prod.fst =
      keys.filter fun itemName => (given itemName).isSome := by
  induction keys with
  | nil => rfl
  | cons itemName rest ih =>
    cases result : given itemName with
    | none => simpa [result] using ih
    | some value => simpa [result] using ih

omit [DecidableEq Number] [Zero Number] in
theorem keys_object_filterMap {keys : List String} (nodup : keys.Nodup)
    (given : String → Option (NodeParameterValueType Number)) :
    (object (keys.filterMap fun itemName => (given itemName).map (Prod.mk itemName)) :
      NodeParameterValueType Number).keys = keys.filter fun itemName => (given itemName).isSome :=
  (congrArg List.dedup (map_fst_filterMap keys given)).trans (nodup.filter _).dedup

omit [DecidableEq Number] [Zero Number] in
theorem get_object_filterMap {keys : List String} (nodup : keys.Nodup) {itemName : String} (member : itemName ∈ keys)
    (given : String → Option (NodeParameterValueType Number)) :
    (object (keys.filterMap fun itemName => (given itemName).map (Prod.mk itemName)) :
      NodeParameterValueType Number).get itemName = (given itemName).getD undefined := by
  have nodupKeys : ((keys.filterMap fun itemName => (given itemName).map (Prod.mk itemName)).map Prod.fst).Nodup := by
    rw [map_fst_filterMap]
    exact nodup.filter _
  let parameters : INodeParameters Number := ⟨_, nodupKeys⟩
  have read : parameters.get? itemName = given itemName := by
    cases result : given itemName with
    | some value =>
      exact OrderedMap.get?_eq_some.mpr (List.mem_filterMap.mpr ⟨itemName, member, by rw [result]; rfl⟩)
    | none =>
      refine OrderedMap.get?_eq_none.mpr fun inside => ?_
      have kept : itemName ∈ keys.filter fun itemName => (given itemName).isSome :=
        map_fst_filterMap keys given ▸ inside
      simp [result] at kept
  exact (get_entries parameters itemName).trans (by rw [read])

/-- What is read of a property once its outcome is saved. -/
def Outcome.stored : Outcome Number → NodeParameterValueType Number
  | .set value _ => value
  | .skip | .returned _ => undefined

omit [DecidableEq Number] [Zero Number] in
/-- The values of the options that were saved bring back those that were loaded, when nothing is loaded of the options
that were left out. -/
theorem filterMap_of_left_out {keys : List String} {loaded saved : String → Option (NodeParameterValueType Number)}
    (leftOut : ∀ itemName ∈ keys, saved itemName = none → loaded itemName = none) :
    (keys.filter fun itemName => (saved itemName).isSome).filterMap
        (fun itemName => (loaded itemName).map (Prod.mk itemName)) =
      keys.filterMap fun itemName => (loaded itemName).map (Prod.mk itemName) := by
  induction keys with
  | nil => rfl
  | cons itemName rest ih =>
    have later := ih fun other member => leftOut other (List.mem_cons_of_mem itemName member)
    cases result : saved itemName with
    | none => simpa [result, leftOut itemName List.mem_cons_self result] using later
    | some value => simp only [List.filter_cons, result, Option.isSome_some, if_true, List.filterMap_cons, later]

/-- What a save makes of an option of a fixed collection, and of what is loaded of it. -/
structure SavedOption (head : PropertyHead Number) (multipleValues : Option Bool)
    (options : List (String × List (INodeProperties Number))) (root root' value : NodeParameterValueType Number)
    (itemName : String) (loaded saved : Option (NodeParameterValueType Number)) : Prop where
  saves : resolveOption runtime node false head multipleValues options root value value itemName = .ok saved
  stays : multipleValues = some true → saved ≠ none
  keeps : multipleValues ≠ some true →
    (saved ≠ none ↔ OptionKeeps runtime node head multipleValues options value root itemName)
  shows : multipleValues ≠ some true →
    (loaded ≠ none ↔ OptionShows runtime node head multipleValues options value root itemName)
  reloads : ComesBack runtime node false head multipleValues options value root itemName →
    ∀ value', value' ≠ undefined ∧ value' ≠ null → value'.get itemName = saved.getD (.object []) →
      resolveOption runtime node true head multipleValues options root' value' value' itemName = .ok loaded

theorem resolveOption_saved
    {loaded : String → Option (NodeParameterValueType Number)}
    (items : ∀ itemName ∈ value.keys, ComesBack runtime node false head multipleValues options value root itemName →
      @ItemsReload _ _ _ runtime node head multipleValues options root root' false value itemName)
    (each : ∀ itemName ∈ value.keys,
      resolveOption runtime node true head multipleValues options root value value itemName = .ok (loaded itemName)) :
    ∃ saved : String → Option (NodeParameterValueType Number), ∀ itemName ∈ value.keys,
      @SavedOption _ _ _ runtime node head multipleValues options root root' value itemName (loaded itemName)
        (saved itemName) := by
  -- For one option first; the values for all of them are chosen below.
  have one : ∀ itemName, ∃ saved, itemName ∈ value.keys →
      @SavedOption _ _ _ runtime node head multipleValues options root root' value itemName (loaded itemName)
        saved := by
    intro itemName
    by_cases key : itemName ∈ value.keys
    · have present := not_nothing_of_mem_keys key
      by_cases multiple : multipleValues = some true
      · obtain ⟨saved, saves, again⟩ := resolveOption_saved_multiple multiple
          (items itemName key (.inr (.inr (.inl multiple)))) (each itemName key)
        exact ⟨some saved, fun _ => {
          saves := saves
          stays := fun _ => by simp
          keeps := fun single => absurd multiple single
          shows := fun single => absurd multiple single
          reloads := fun _ value' _ read => again value' value' read }⟩
      · obtain ⟨saved, saves⟩ := resolveOption_saves (fun list _ => saves_of_loads list) (each itemName key)
        exact ⟨saved, fun _ => {
          saves := saves
          stays := fun single => absurd single multiple
          keeps := fun _ => resolveOption_keeps multiple present saves
          shows := fun _ => resolveOption_shows multiple present (each itemName key)
          reloads := fun back value' present' read => resolveOption_saved_single multiple present
            (items itemName key back) (each itemName key) saves present' read }⟩
    · exact ⟨none, fun key' => absurd key' key⟩
  choose saved all using one
  exact ⟨saved, all⟩

section

variable {value : NodeParameterValueType Number} {parentType : Option ParentType}
  {loaded saved : String → Option (NodeParameterValueType Number)}

theorem KeepsItems.cases (kept : KeepsItems runtime node head multipleValues options value root parentType)
    (all : ∀ itemName ∈ value.keys, @SavedOption _ _ _ runtime node head multipleValues options root root' value
      itemName (loaded itemName) (saved itemName)) :
    (∃ itemName ∈ value.keys, saved itemName ≠ none) ∧
        (∀ itemName ∈ value.keys, saved itemName = none → loaded itemName = none) ∨
      (∀ itemName ∈ value.keys, saved itemName = none) ∧
        (multipleValues = some false ∧ value.isPlainObject ∧ value.keys ≠ [] ∨
          (∀ itemName ∈ value.keys, loaded itemName = none) ∧ parentType ≠ some .collection ∧
            ∀ itemName ∈ head.default.keys, multipleValues ≠ some true ∧
              findOption head multipleValues options itemName = none) := by
  unfold KeepsItems at kept
  dsimp only at kept
  split at kept
  next multiple =>
    have every : ∀ itemName ∈ value.keys, saved itemName ≠ none := fun itemName key => (all itemName key).stays multiple
    rcases kept with filled | ⟨notCollection, noDefault⟩
    · obtain ⟨itemName, key⟩ := List.exists_mem_of_ne_nil _ filled
      exact .inl ⟨⟨itemName, key, every itemName key⟩, fun other otherKey none => absurd none (every other otherKey)⟩
    · by_cases filled : value.keys = []
      · refine .inr ⟨by simp [filled], .inr ⟨by simp [filled], notCollection, by simp [noDefault]⟩⟩
      · obtain ⟨itemName, key⟩ := List.exists_mem_of_ne_nil _ filled
        exact .inl ⟨⟨itemName, key, every itemName key⟩, fun other otherKey none => absurd none (every other otherKey)⟩
  next single =>
    have keeps := fun itemName key => (all itemName key).keeps single
    have shows := fun itemName key => (all itemName key).shows single
    rcases kept with ⟨⟨itemName, key, kept⟩, showsKept⟩ | ⟨noneKept, indicated | ⟨noneShown, notCollection, noOption⟩⟩
    · refine .inl ⟨⟨itemName, key, (keeps itemName key).mpr kept⟩, fun other otherKey none => ?_⟩
      by_contra shown
      exact (keeps other otherKey).mpr (showsKept other otherKey ((shows other otherKey).mp shown)) none
    · refine .inr ⟨fun itemName key => ?_, .inl indicated⟩
      by_contra stored
      exact noneKept itemName key ((keeps itemName key).mp stored)
    · refine .inr ⟨fun itemName key => ?_, .inr ⟨fun itemName key => ?_, notCollection,
        fun itemName key => ⟨single, noOption itemName key⟩⟩⟩
      · by_contra stored
        exact noneKept itemName key ((keeps itemName key).mp stored)
      · by_contra shown
        exact noneShown itemName key ((shows itemName key).mp shown)

def loadedOutcome (value : NodeParameterValueType Number)
    (loaded : String → Option (NodeParameterValueType Number)) : Outcome Number :=
  .set (.object (value.keys.filterMap fun itemName => (loaded itemName).map (Prod.mk itemName))) true

theorem loads_savedOptions (all : ∀ itemName ∈ value.keys, @SavedOption _ _ _ runtime node head multipleValues options
      root root' value itemName (loaded itemName) (saved itemName))
    (leftOut : ∀ itemName ∈ value.keys, saved itemName = none → loaded itemName = none)
    (nodeValues' : NodeParameterValueType Number) :
    fixedCollectionOutcome head multipleValues options nodeValues'
      (.object (value.keys.filterMap fun itemName => (saved itemName).map (Prod.mk itemName))) true
      (fun list _ item => resolveLevel runtime node true list item (some root') (some .fixedCollection)) =
        .ok (loadedOutcome value loaded) := by
  have comesBack : ∀ itemName ∈ value.keys, saved itemName ≠ none →
      ComesBack runtime node false head multipleValues options value root itemName := by
    intro itemName key stored
    by_cases multiple : multipleValues = some true
    · exact .inr (.inr (.inl multiple))
    · exact .inr (.inr (.inr (.inl (((all itemName key).keeps multiple).mp stored))))
  refine (fixedCollectionOutcome_loads loaded (if_neg (by simp)) fun other member => ?_).trans ?_
  · rw [keys_object_filterMap value.nodup_keys] at member
    obtain ⟨otherKey, isSome⟩ := List.mem_filter.mp member
    have stored := comesBack other otherKey (by simpa using Option.isSome_iff_ne_none.mp isSome)
    refine (all other otherKey).reloads stored _ (by simp) ?_
    rw [get_object_filterMap value.nodup_keys otherKey]
    obtain ⟨_, result⟩ := Option.isSome_iff_exists.mp isSome
    rw [result]
    rfl
  · rw [loadedOutcome, keys_object_filterMap value.nodup_keys, filterMap_of_left_out leftOut]

theorem loads_emptyObjects (all : ∀ itemName ∈ value.keys, @SavedOption _ _ _ runtime node head multipleValues options
      root root' value itemName (loaded itemName) (saved itemName))
    (nothing : ∀ itemName ∈ value.keys, saved itemName = none) (declared : multipleValues = some false)
    (isPlain : value.isPlainObject) (nodeValues' : NodeParameterValueType Number) :
    fixedCollectionOutcome head multipleValues options nodeValues'
      (.object (value.keys.foldl (fun (returnValue : INodeParameters Number) itemName =>
        returnValue.set itemName (.object [])) ∅).entries) true
      (fun list _ item => resolveLevel runtime node true list item (some root') (some .fixedCollection)) =
        .ok (loadedOutcome value loaded) := by
  have single : multipleValues ≠ some true := by simp [declared]
  have indicates : (value.keys.foldl (fun (returnValue : INodeParameters Number) itemName =>
      returnValue.set itemName (.object [])) ∅).entries =
        value.keys.filterMap fun itemName => (some (object [])).map (Prod.mk itemName) := by
    rw [OrderedMap.entries_foldl_set value.nodup_keys fun _ _ => List.not_mem_nil]
    simp
  rw [indicates]
  refine (fixedCollectionOutcome_loads loaded (if_neg (by simp)) fun other member => ?_).trans ?_
  · rw [keys_object_filterMap value.nodup_keys] at member
    have otherKey := (List.mem_filter.mp member).1
    have isBack : ComesBack runtime node false head multipleValues options value root other :=
      .inr (.inr (.inr (.inr ⟨declared, isPlain, fun another anotherKey keeps =>
        ((all another anotherKey).keeps single).mpr keeps (nothing another anotherKey)⟩)))
    refine (all other otherKey).reloads isBack _ (by simp) ?_
    rw [get_object_filterMap value.nodup_keys otherKey, nothing other otherKey]
    rfl
  · rw [keys_object_filterMap value.nodup_keys]
    simp [loadedOutcome]

theorem loads_nothing (noneLoaded : ∀ itemName ∈ value.keys, loaded itemName = none)
    (noOption : ∀ itemName ∈ head.default.keys, multipleValues ≠ some true ∧
      findOption head multipleValues options itemName = none) (nodeValues' : NodeParameterValueType Number) :
    fixedCollectionOutcome head multipleValues options nodeValues' undefined true
      (fun list _ item => resolveLevel runtime node true list item (some root') (some .fixedCollection)) =
        .ok (loadedOutcome value loaded) := by
  refine (fixedCollectionOutcome_loads (fun _ => none) (if_pos rfl) fun other member => ?_).trans ?_
  · exact optionValues_of_missing (noOption other member).1 (noOption other member).2
  · have none : (value.keys.filterMap fun itemName => (loaded itemName).map (Prod.mk itemName)) = [] := by
      rw [List.filterMap_eq_nil_iff]
      intro itemName key
      rw [noneLoaded itemName key]
      rfl
    rw [loadedOutcome, none]
    simp

end

/-- What a save leaves of a fixed collection brings back what a load made of it before. -/
theorem fixedCollection_reloads {nodeValues value : NodeParameterValueType Number} {parentType : Option ParentType}
    {outcome : Outcome Number} (present : value ≠ undefined)
    (unreturned : ¬ (multipleValues = some false ∧ value.isTruthy ∧ value.keys = []))
    (items : ∀ itemName ∈ value.keys, ComesBack runtime node false head multipleValues options value root itemName →
      @ItemsReload _ _ _ runtime node head multipleValues options root root' false value itemName)
    (kept : KeepsItems runtime node head multipleValues options value root parentType)
    (returns : fixedCollectionOutcome head multipleValues options nodeValues value true
      (fun list _ item => resolveLevel runtime node true list item (some root) (some .fixedCollection)) =
        .ok outcome) :
    ∃ saved, fixedCollectionOutcome head multipleValues options nodeValues value false
        (fun list _ item => resolveLevel runtime node false list item (some root) (some .fixedCollection)) =
          .ok saved ∧
      (∀ other, saved ≠ .returned other) ∧
      (∀ final full, saved = .set final full → final ≠ undefined) ∧
      (parentType = some .collection → ∃ final full, saved = .set final full) ∧
      ∀ nodeValues', fixedCollectionOutcome head multipleValues options nodeValues' saved.stored true
        (fun list _ item => resolveLevel runtime node true list item (some root') (some .fixedCollection)) =
          .ok outcome := by
  obtain ⟨loaded, each, rfl⟩ := fixedCollectionOutcome_loaded (if_neg present) returns
  obtain ⟨saved, all⟩ := resolveOption_saved items each
  have left := kept.cases all
  have some_iff : (value.keys.filterMap fun itemName => (saved itemName).map (Prod.mk itemName)) ≠ [] ↔
      ∃ itemName ∈ value.keys, saved itemName ≠ none := by
    rw [ne_eq, List.filterMap_eq_nil_iff]
    push Not
    simp
  refine ⟨_, fixedCollectionOutcome_saves unreturned fun itemName key => (all itemName key).saves, ?_, ?_, ?_, ?_⟩
  · intro other
    unfold savedOutcome
    split_ifs <;> simp
  · intro final full set
    unfold savedOutcome at set
    split_ifs at set
    · cases set
      simp
    · cases set
      simp
  · intro isCollection
    rcases left with ⟨stored, _⟩ | ⟨_, indicated | ⟨_, notCollection, _⟩⟩
    · rw [savedOutcome, if_pos (some_iff.mpr stored)]
      exact ⟨_, _, rfl⟩
    · rw [savedOutcome, if_pos indicated]
      split <;> exact ⟨_, _, rfl⟩
    · exact absurd isCollection notCollection
  · intro nodeValues'
    unfold savedOutcome
    split_ifs with filled indicated
    · obtain ⟨itemName, key, stored⟩ := some_iff.mp filled
      rcases left with ⟨_, leftOut⟩ | ⟨nothing, _⟩
      · exact loads_savedOptions all leftOut nodeValues'
      · exact absurd (nothing itemName key) stored
    · have nothing : ∀ itemName ∈ value.keys, saved itemName = none := by
        intro itemName key
        by_contra stored
        exact filled (some_iff.mpr ⟨itemName, key, stored⟩)
      exact loads_emptyObjects all nothing indicated.1 indicated.2.1 nodeValues'
    · rcases left with ⟨stored, _⟩ | ⟨_, isIndicated | ⟨noneLoaded, _, noOption⟩⟩
      · exact absurd (some_iff.mpr stored) filled
      · exact absurd isIndicated indicated
      · exact loads_nothing noneLoaded noOption nodeValues'

end

/-! ### A level -/

variable {list : List (INodeProperties Number)} {parentType : Option ParentType}

theorem displayValues_of_left {left stored : NodeParameterValueType Number}
    {root' : Option (NodeParameterValueType Number)} {check' : INodeParameters Number}
    (leftTruthy : left.isTruthy) (storedTruthy : stored.isTruthy)
    (differ : ∀ name, stored.get name ≠ left.get name → check'.get? name = none)
    (absent : ∀ name, left.get name = undefined → stored.get name = undefined)
    (checked : displayValues runtime node list left root' parentType = .ok check') :
    displayValues runtime node list stored root' parentType = .ok check' := by
  -- a name that is found once stays
  have stays : ∀ name (order : List Nat) (found final : INodeParameters Number),
      order.foldlM (addDisplayValue runtime node list left root' parentType) found = .ok final →
        found.get? name ≠ none → final.get? name ≠ none := by
    intro name order found final returns isFound
    refine Loop.foldlM_preserves (fun found : INodeParameters Number => found.get? name ≠ none) ?_ isFound returns
    intro index _ found next isFound turn
    rw [addDisplayValue] at turn
    split at turn
    · cases turn
    · split at turn
      · cases turn
        exact isFound
      · obtain ⟨displayed, _, rest⟩ := Loop.bind_inv turn
        split at rest
        · cases rest
          rw [OrderedMap.get?_set]
          split
          · simp
          · exact isFound
        · cases rest
          exact isFound
    · cases turn
      exact isFound
  have turn : ∀ (order : List Nat) (found : INodeParameters Number),
      order.foldlM (addDisplayValue runtime node list left root' parentType) found = .ok check' →
        order.foldlM (addDisplayValue runtime node list stored root' parentType) found = .ok check' := by
    intro order
    induction order with
    | nil => exact fun _ returns => returns
    | cons index rest ih =>
      intro found returns
      obtain ⟨next, first, remaining⟩ := Loop.foldlM_cons_inv returns
      suffices same : addDisplayValue runtime node list stored root' parentType found index = .ok next by
        rw [Loop.foldlM_cons_ok same]
        exact ih next remaining
      rw [addDisplayValue] at first ⊢
      split at first
      · cases first
      next head type located =>
        by_cases read : stored.get head.name = left.get head.name
        · simpa only [leftTruthy, storedTruthy, read] using first
        · -- the name is never found, so neither pass sets it here
          have unfound := differ head.name read
          split at first
          next skipped =>
            have missing := absent head.name (skipped.resolve_left (not_not.mpr leftTruthy)).1
            dsimp only
            rw [if_pos (.inr ⟨missing, (skipped.resolve_left (not_not.mpr leftTruthy)).2⟩)]
            exact first
          · obtain ⟨displayed, shown, rest⟩ := Loop.bind_inv first
            cases displayed with
            | true =>
              rw [if_pos rfl] at rest
              cases rest
              exact absurd unfound (stays head.name _ _ _ remaining (by simp))
            | false =>
              dsimp only
              split
              · exact rest
              · rw [shown]
                exact rest
      next property notSimple located => exact first
  rw [displayValues] at checked ⊢
  obtain ⟨order, ordered, returns⟩ := Loop.bind_inv checked
  rw [ordered]
  exact turn order ∅ returns
/-- A level that is `Stable`, with what follows for the levels inside it. -/
structure StableLevel (list : List (INodeProperties Number)) (nodeValues : NodeParameterValueType Number)
    (root root' : Option (NodeParameterValueType Number)) (whole : Bool) (parentType : Option ParentType)
    (check check' : INodeParameters Number) (asIs : Bool) (left : NodeParameterValueType Number) : Prop where
  truthy : nodeValues.isTruthy
  checked : displayValues runtime node list nodeValues root parentType = .ok check
  isAsIs : asIs = (whole || savesWhole runtime node list nodeValues check root)
  isLeft : left = if asIs then nodeValues else keptValues runtime node list nodeValues check root parentType
  checked' : displayValues runtime node list left root' parentType = .ok check'
  alike : ∀ property ∈ list, parentType ≠ some .collection ∨ left.get property.name ≠ undefined →
    displays runtime node check' root' property = displays runtime node check root property
  distinct : asIs = false → ∀ property ∈ list, (∀ head type, property ≠ .simple head type) →
    nodeValues.get property.name ≠ undefined → displays runtime node check root property = .ok true →
      check'.get? property.name = none ∧ ∀ other ∈ list, other.name = property.name →
        displays runtime node check root other = .ok true → other = property
  marked : asIs = false → parentType ≠ some .collection → ∀ head, .simple head .resourceLocator ∈ list →
    displays runtime node check root (.simple head .resourceLocator) = .ok true →
      nodeValues.get head.name = head.default → head.default.isObjectType →
        valueOrDefault .resourceLocator head.default undefined = head.default
  collections : ∀ head multipleValues options, .collection head multipleValues options ∈ list →
    displays runtime node check root (.collection head multipleValues options) = .ok true →
      multipleValues ≠ some true → nodeValues.get head.name ≠ undefined →
        @Reloads _ _ _ runtime node options (nodeValues.get head.name) (some (rootValues check root))
          (some (rootValues check' root')) asIs (some .collection)
  items : ∀ head multipleValues options, .fixedCollection head multipleValues options ∈ list →
    displays runtime node check root (.fixedCollection head multipleValues options) = .ok true →
      parentType ≠ some .collection ∨ nodeValues.get head.name ≠ undefined →
        let value := nodeValues.get head.name
        let propertyValues := if value = undefined then head.default else value
        ∀ itemName ∈ propertyValues.keys,
          ComesBack runtime node asIs head multipleValues options value (rootValues check root) itemName →
            @ItemsReload _ _ _ runtime node head multipleValues options (rootValues check root)
              (rootValues check' root') (asIs || value = undefined) propertyValues itemName
  kept : asIs = false → ∀ head multipleValues options, .fixedCollection head multipleValues options ∈ list →
    displays runtime node check root (.fixedCollection head multipleValues options) = .ok true →
      nodeValues.get head.name ≠ undefined →
        KeepsItems runtime node head multipleValues options (nodeValues.get head.name) (rootValues check root)
          parentType

section

variable {list : List (INodeProperties Number)} {nodeValues left : NodeParameterValueType Number}
  {root root' : Option (NodeParameterValueType Number)} {whole asIs : Bool} {parentType : Option ParentType}
  {check check' : INodeParameters Number}

namespace StableLevel

variable (level : @StableLevel _ _ _ runtime node list nodeValues root root' whole parentType check check' asIs left)

include level

variable {property : INodeProperties Number}

/-- A displayed property with other properties inside is saved as something that brings back what was loaded. -/
theorem complex (saved : asIs = false) (member : property ∈ list)
    (notSimple : ∀ head type, property ≠ .simple head type)
    (shown : displays runtime node check root property = .ok true) (present : nodeValues.get property.name ≠ undefined)
    {outcome : Outcome Number}
    (returns : displayedOutcome runtime node true nodeValues (rootValues check root) parentType property =
      .ok outcome) :
    ∃ kept, displayedOutcome runtime node false nodeValues (rootValues check root) parentType property = .ok kept ∧
      (∀ other, kept ≠ .returned other) ∧ (∀ final full, kept = .set final full → final ≠ undefined) ∧
      (parentType = some .collection → ∃ final full, kept = .set final full) ∧
      ∀ stored : NodeParameterValueType Number, stored.get property.name = kept.stored →
        displayedOutcome runtime node true stored (rootValues check' root') parentType property = .ok outcome := by
  cases property with
  | simple head type => exact absurd rfl (notSimple head type)
  | collection head multipleValues options =>
    change nodeValues.get head.name ≠ undefined at present
    rw [displayedOutcome_collection present] at returns ⊢
    split at returns
    next multiple =>
      refine ⟨_, if_pos multiple, fun _ => by simp, ?_, fun _ => ⟨_, _, rfl⟩, fun stored read => ?_⟩
      · rintro final full set
        cases set
        exact present
      · change stored.get head.name = nodeValues.get head.name at read
        rw [displayedOutcome_collection (read ▸ present), if_pos multiple, read]
        exact returns
    next single =>
      obtain ⟨loaded, first, rest⟩ := Loop.bind_inv returns
      obtain ⟨nested, saves⟩ := saves_of_loads options _ loaded _ _ first
      have again := level.collections head multipleValues options member shown single present loaded nested first saves
      rw [if_neg single, saves]
      refine ⟨_, rfl, fun _ => by simp, ?_, fun _ => ⟨_, _, rfl⟩, fun stored read => ?_⟩
      · rintro final full set
        cases set
        exact (resolveLevel_not_nothing saves).1
      · change stored.get head.name = nested at read
        rw [displayedOutcome_collection (read ▸ (resolveLevel_not_nothing saves).1), if_neg single, read]
        simp only [saved, Bool.false_eq_true, if_false] at again
        rw [again]
        exact rest
  | fixedCollection head multipleValues options =>
    change nodeValues.get head.name ≠ undefined at present
    have items := level.items head multipleValues options member shown (.inr present)
    simp only [saved, present, decide_false, Bool.or_self] at items
    have unreturned : ¬ (multipleValues = some false ∧ (nodeValues.get head.name).isTruthy ∧
        (nodeValues.get head.name).keys = []) := by
      intro returned
      have unsaved := level.isAsIs
      rw [saved] at unsaved
      have notWhole := (Bool.or_eq_false_iff.mp unsaved.symm).2
      have left : levelOutcome runtime node false nodeValues check root parentType
          (.fixedCollection head multipleValues options) = .ok (.returned nodeValues) := by
        have visited : ¬ IsSkipped false nodeValues parentType head.name := visited_iff.mpr ⟨level.truthy, present⟩
        refine (levelOutcome_of_displayed visited shown).trans ?_
        rw [displayedOutcome, fixedCollectionOutcome_withoutDefaults]
        exact if_pos returned
      rw [(savesWhole_iff level.truthy).mpr ⟨_, member, left⟩] at notWhole
      cases notWhole
    obtain ⟨kept, saves, stays, present', isSet, again⟩ := fixedCollection_reloads present unreturned items
      (level.kept saved head multipleValues options member shown present) returns
    refine ⟨kept, saves, stays, present', isSet, fun stored read => ?_⟩
    change stored.get head.name = kept.stored at read
    rw [displayedOutcome, read]
    exact again stored

theorem displayed_whole (member : property ∈ list)
    (shown : displays runtime node check root property = .ok true)
    (visited : ¬ IsSkipped true nodeValues parentType property.name)
    (unsaved : asIs = true ∨ nodeValues.get property.name = undefined) {stored : NodeParameterValueType Number}
    (read : stored.get property.name = nodeValues.get property.name) {outcome : Outcome Number}
    (returns : displayedOutcome runtime node true nodeValues (rootValues check root) parentType property =
      .ok outcome) :
    displayedOutcome runtime node true stored (rootValues check' root') parentType property = .ok outcome := by
  cases property with
  | simple head type =>
    change stored.get head.name = nodeValues.get head.name at read
    rw [displayedOutcome] at returns ⊢
    rw [read]
    exact returns
  | collection head multipleValues options =>
    change stored.get head.name = nodeValues.get head.name at read
    by_cases present : nodeValues.get head.name = undefined
    · -- the default value is taken as it is
      simp only [displayedOutcome, collectionOutcome, read, present, ne_eq, not_true_eq_false, if_false] at returns ⊢
      exact returns
    · rw [displayedOutcome_collection present] at returns
      rw [displayedOutcome_collection (read ▸ present), read]
      split at returns
      next multiple =>
        rw [if_pos multiple]
        exact returns
      next single =>
        obtain ⟨loaded, first, rest⟩ := Loop.bind_inv returns
        obtain ⟨nested, saves⟩ := saves_of_loads options _ loaded _ _ first
        have again := level.collections head multipleValues options member shown single present loaded nested first
          saves
        rw [if_pos (unsaved.resolve_right present)] at again
        rw [if_neg single, again]
        exact rest
  | fixedCollection head multipleValues options =>
    change stored.get head.name = nodeValues.get head.name at read
    change asIs = true ∨ nodeValues.get head.name = undefined at unsaved
    have notNested : parentType ≠ some .collection ∨ nodeValues.get head.name ≠ undefined := by
      by_contra neither
      rw [not_or, not_not, not_not] at neither
      exact visited (.inr ⟨neither.2, .inr neither.1⟩)
    have items := level.items head multipleValues options member shown notNested
    have whole : (asIs || decide (nodeValues.get head.name = undefined)) = true := by simpa using unsaved
    simp only [whole] at items
    rw [displayedOutcome] at returns ⊢
    obtain ⟨given, each, rfl⟩ := fixedCollectionOutcome_loaded rfl returns
    rw [read]
    refine fixedCollectionOutcome_loads given rfl fun itemName key => ?_
    exact resolveOption_whole (fun present => if_neg present)
      (items itemName key (unsaved.elim .inl fun missing => .inr (.inl missing))) (each itemName key)

theorem reloads_whole (isWhole : asIs = true) (member : property ∈ list)
    {outcome : Outcome Number}
    (returns : levelOutcome runtime node true nodeValues check root parentType property = .ok outcome) :
    levelOutcome runtime node true nodeValues check' root' parentType property = .ok outcome := by
  have same : left = nodeValues := by rw [level.isLeft, if_pos isWhole]
  rcases levelOutcome_inv returns with ⟨skipped, rfl⟩ | ⟨visited, rest⟩
  · exact levelOutcome_of_skipped skipped check' root'
  · have alike := level.alike property member (by
      by_contra neither
      rw [not_or, not_not, not_not, same] at neither
      exact visited (.inr ⟨neither.2, .inr neither.1⟩))
    rcases rest with ⟨hidden, rfl⟩ | ⟨shown, displayed⟩
    · exact levelOutcome_of_hidden (alike.trans hidden)
    · rw [levelOutcome_of_displayed visited (alike.trans shown)]
      exact level.displayed_whole member shown visited (.inl isWhole) rfl displayed

/-! ### What a save collects -/

omit level in
theorem isKept_of_sets {name : String} {value : NodeParameterValueType Number}
    (sets : @Sets _ _ _ runtime node false list nodeValues root parentType check name value) :
    isKept runtime node list nodeValues check root parentType name = true := by
  obtain ⟨property, member, rfl, full, outcome⟩ := sets
  obtain ⟨present, shown, _, differs⟩ := levelOutcome_saved outcome
  rw [isKept_iff]
  refine ⟨present, property, member, rfl, shown, ?_⟩
  rintro head type rfl
  exact (differs head type rfl).1

omit level in
theorem sets_of_simple {head : PropertyHead Number} {type : SimpleType} (truthy : nodeValues.isTruthy)
    (member : .simple head type ∈ list) (present : nodeValues.get head.name ≠ undefined)
    (shown : displays runtime node check root (.simple head type) = .ok true)
    (differs : differsFromDefault parentType head.default (nodeValues.get head.name) = true) :
    @Sets _ _ _ runtime node false list nodeValues root parentType check head.name (nodeValues.get head.name) := by
  have visited : ¬ IsSkipped false nodeValues parentType (INodeProperties.simple head type).name :=
    visited_iff.mpr ⟨truthy, present⟩
  refine ⟨_, member, rfl, true, ?_⟩
  rw [levelOutcome_of_displayed visited shown, displayedOutcome, simpleOutcome, if_neg Bool.false_ne_true,
    if_pos differs]

theorem sets_of_complex (saved : asIs = false) (member : property ∈ list)
    (notSimple : ∀ head type, property ≠ .simple head type) (present : nodeValues.get property.name ≠ undefined)
    (shown : displays runtime node check root property = .ok true) {value : NodeParameterValueType Number}
    (sets : @Sets _ _ _ runtime node false list nodeValues root parentType check property.name value) :
    ∃ full, levelOutcome runtime node false nodeValues check root parentType property = .ok (.set value full) := by
  obtain ⟨other, otherMember, named, full, outcome⟩ := sets
  have otherShown := (levelOutcome_saved outcome).2.1
  obtain rfl := (level.distinct saved property member notSimple present shown).2 other otherMember named otherShown
  exact ⟨full, outcome⟩

theorem sets_functional (saved : asIs = false) (name : String) (value value' : NodeParameterValueType Number)
    (sets : @Sets _ _ _ runtime node false list nodeValues root parentType check name value)
    (sets' : @Sets _ _ _ runtime node false list nodeValues root parentType check name value') : value = value' := by
  obtain ⟨property, member, rfl, full, outcome⟩ := sets
  obtain ⟨present, shown, _, isSimple⟩ := levelOutcome_saved outcome
  rcases simple_or_not property with ⟨head, type, rfl⟩ | notSimple
  · obtain ⟨other, otherMember, named, full', outcome'⟩ := sets'
    obtain ⟨otherPresent, otherShown, _, isSimple'⟩ := levelOutcome_saved outcome'
    rcases simple_or_not other with ⟨otherHead, otherType, rfl⟩ | notSimple
    · change otherHead.name = head.name at named
      rw [(isSimple head type rfl).2, (isSimple' otherHead otherType rfl).2, named]
    · have same := (level.distinct saved other otherMember notSimple otherPresent otherShown).2 _ member named.symm
        shown
      exact absurd same.symm (notSimple head type)
  · obtain ⟨full', outcome'⟩ := level.sets_of_complex saved member notSimple present shown sets'
    rw [outcome] at outcome'
    cases outcome'
    rfl

theorem left_get (saved : asIs = false) (name : String) :
    left.get name =
      if isKept runtime node list nodeValues check root parentType name then nodeValues.get name else undefined := by
  rw [level.isLeft, saved, if_neg Bool.false_ne_true]
  exact get_filter nodeValues (isKept runtime node list nodeValues check root parentType) name

theorem valueOrDefault_undefined (saved : asIs = false) {head : PropertyHead Number} {type : SimpleType}
    (member : .simple head type ∈ list) (shown : displays runtime node check root (.simple head type) = .ok true)
    (isDefault : nodeValues.get head.name = head.default) (present : nodeValues.get head.name ≠ undefined)
    (notCollection : parentType ≠ some .collection) :
    valueOrDefault type head.default undefined = valueOrDefault type head.default (nodeValues.get head.name) := by
  rw [isDefault] at present
  by_cases isMarked : type = .resourceLocator ∧ head.default.isObjectType
  · obtain ⟨rfl, isObject⟩ := isMarked
    rw [level.marked saved notCollection head member shown isDefault isObject, isDefault]
    simp [valueOrDefault, isObject, present]
  · rw [isDefault]
    unfold valueOrDefault
    split
    · simp
    · cases head.default <;> rfl

section

variable (saved : asIs = false) {stored : INodeParameters Number}
  (collected : ∀ name value, stored.get? name = some value ↔
    @Sets _ _ _ runtime node false list nodeValues root parentType check name value)

include collected

variable {name : String}

omit level in
theorem stored_of_sets {value : NodeParameterValueType Number}
    (sets : @Sets _ _ _ runtime node false list nodeValues root parentType check name value) :
    (object stored.entries : NodeParameterValueType Number).get name = value := by
  rw [get_entries, (collected name value).mpr sets]
  rfl

omit level in
theorem sets_of_stored
    (present : (object stored.entries : NodeParameterValueType Number).get name ≠ undefined) :
    @Sets _ _ _ runtime node false list nodeValues root parentType check name
      ((object stored.entries : NodeParameterValueType Number).get name) := by
  rw [get_entries] at present ⊢
  cases found : stored.get? name with
  | none => simp [found] at present
  | some value => exact (collected name value).mp found

omit level in
theorem stored_of_missing (missing : nodeValues.get name = undefined) :
    (object stored.entries : NodeParameterValueType Number).get name = undefined := by
  by_contra present
  exact (isKept_iff.mp (isKept_of_sets (sets_of_stored collected present))).1 missing

theorem stored_of_simple
    (onlySimple : ∀ property ∈ list, property.name = name →
      displays runtime node check root property = .ok true → ∃ head type, property = .simple head type) :
    (object stored.entries : NodeParameterValueType Number).get name =
      if isKept runtime node list nodeValues check root parentType name then nodeValues.get name else undefined := by
  cases kept : isKept runtime node list nodeValues check root parentType name with
  | true =>
    obtain ⟨present, property, member, rfl, shown, differs⟩ := isKept_iff.mp kept
    obtain ⟨head, type, rfl⟩ := onlySimple property member rfl shown
    exact stored_of_sets collected (sets_of_simple level.truthy member present shown (differs head type rfl))
  | false =>
    by_contra present
    have isKept := isKept_of_sets (sets_of_stored collected present)
    rw [kept] at isKept
    cases isKept

include saved

theorem stored_of_left (missing : left.get name = undefined) :
    (object stored.entries : NodeParameterValueType Number).get name = undefined := by
  by_contra present
  have isKept := isKept_of_sets (sets_of_stored collected present)
  rw [level.left_get saved, if_pos isKept] at missing
  exact (isKept_iff.mp isKept).1 missing

theorem checked_stored :
    displayValues runtime node list (.object stored.entries) root' parentType = .ok check' := by
  have leftTruthy : left.isTruthy := by
    rw [level.isLeft, saved, if_neg Bool.false_ne_true]
    rfl
  refine displayValues_of_left leftTruthy rfl (fun name differ => ?_) (fun name missing => ?_) level.checked'
  · -- only a property with others inside is saved as something else than it was
    by_contra found
    rw [level.left_get saved] at differ
    by_cases missing : nodeValues.get name = undefined
    · refine differ ((stored_of_missing collected missing).trans ?_)
      rw [missing]
      split <;> rfl
    · refine differ (level.stored_of_simple collected fun property member named shown => ?_)
      subst named
      refine (simple_or_not property).resolve_right fun notSimple => ?_
      exact found (level.distinct saved property member notSimple missing shown).1
  · exact level.stored_of_left saved collected missing

theorem valueOrDefault_stored {head : PropertyHead Number} {type : SimpleType} (member : .simple head type ∈ list)
    (shown : displays runtime node check root (.simple head type) = .ok true) :
    valueOrDefault type head.default ((object stored.entries : NodeParameterValueType Number).get head.name) =
      valueOrDefault type head.default (nodeValues.get head.name) := by
  by_cases missing : nodeValues.get head.name = undefined
  · rw [stored_of_missing collected missing, missing]
  · -- another displayed property of the name is simple as well
    have onlySimple : ∀ property ∈ list, property.name = head.name →
        displays runtime node check root property = .ok true → ∃ head type, property = .simple head type := by
      intro property otherMember named otherShown
      refine (simple_or_not property).resolve_right fun notSimple => ?_
      have same := (level.distinct saved property otherMember notSimple (named ▸ missing) otherShown).2 _ member
        named.symm shown
      exact notSimple head type same.symm
    rw [level.stored_of_simple collected onlySimple]
    split
    · rfl
    next left =>
      have notDifferent : differsFromDefault parentType head.default (nodeValues.get head.name) = false := by
        by_contra differs
        refine left (isKept_iff.mpr ⟨missing, _, member, rfl, shown, ?_⟩)
        rintro head' type' same
        cases same
        simpa using differs
      simp only [differsFromDefault, decide_eq_false_iff_not, not_or, not_not, not_and] at notDifferent
      obtain ⟨isDefault, notCollection⟩ := notDifferent
      exact level.valueOrDefault_undefined saved member shown isDefault missing (notCollection missing)

/-- A displayed property comes to the same once it is read from what was saved, and inside a collection it is not
missing there. -/
theorem displayed_stored {property : INodeProperties Number} (member : property ∈ list)
    (shown : displays runtime node check root property = .ok true)
    (visited : ¬ IsSkipped true nodeValues parentType property.name) {outcome : Outcome Number}
    (returns : displayedOutcome runtime node true nodeValues (rootValues check root) parentType property =
      .ok outcome) :
    (parentType = some .collection → left.get property.name ≠ undefined ∧
      (object stored.entries : NodeParameterValueType Number).get property.name ≠ undefined) ∧
    displayedOutcome runtime node true (.object stored.entries) (rootValues check' root') parentType property =
      .ok outcome := by
  have inCollection : parentType = some .collection → nodeValues.get property.name ≠ undefined :=
    fun nested missing => visited (.inr ⟨missing, .inr nested⟩)
  rcases simple_or_not property with ⟨head, type, rfl⟩ | notSimple
  · refine ⟨fun nested => ?_, ?_⟩
    · -- a value inside a collection is kept even when it is the default
      have present := inCollection nested
      change nodeValues.get head.name ≠ undefined at present
      have differs : differsFromDefault parentType head.default (nodeValues.get head.name) = true := by
        simp [differsFromDefault, present, nested]
      have sets := sets_of_simple level.truthy member present shown differs
      change left.get head.name ≠ undefined ∧ _
      rw [level.left_get saved, if_pos (isKept_of_sets sets)]
      exact ⟨present, (stored_of_sets collected sets).trans_ne present⟩
    · simp only [displayedOutcome, simpleOutcome, if_true] at returns ⊢
      rw [level.valueOrDefault_stored saved collected member shown]
      exact returns
  · by_cases missing : nodeValues.get property.name = undefined
    · exact ⟨fun nested => absurd missing (inCollection nested), level.displayed_whole member shown visited
        (.inr missing) ((stored_of_missing collected missing).trans missing.symm) returns⟩
    · obtain ⟨kept, saves, stays, isValue, isSet, again⟩ := level.complex saved member notSimple shown missing returns
      have visitedBefore : ¬ IsSkipped false nodeValues parentType property.name :=
        visited_iff.mpr ⟨level.truthy, missing⟩
      have outcome' : levelOutcome runtime node false nodeValues check root parentType property = .ok kept :=
        (levelOutcome_of_displayed visitedBefore shown).trans saves
      have read : (object stored.entries : NodeParameterValueType Number).get property.name = kept.stored := by
        cases kept with
        | returned other => exact absurd rfl (stays other)
        | set final full => exact stored_of_sets collected ⟨property, member, rfl, full, outcome'⟩
        | skip =>
          by_contra present
          obtain ⟨full, set⟩ := level.sets_of_complex saved member notSimple missing shown
            (sets_of_stored collected present)
          rw [outcome'] at set
          cases set
      refine ⟨fun nested => ?_, again _ read⟩
      obtain ⟨final, full, rfl⟩ := isSet nested
      have sets : @Sets _ _ _ runtime node false list nodeValues root parentType check property.name final :=
        ⟨property, member, rfl, full, outcome'⟩
      rw [level.left_get saved, if_pos (isKept_of_sets sets)]
      exact ⟨missing, read.trans_ne (isValue final full rfl)⟩

theorem reloads_stored {property : INodeProperties Number} (member : property ∈ list) {outcome : Outcome Number}
    (returns : levelOutcome runtime node true nodeValues check root parentType property = .ok outcome) :
    levelOutcome runtime node true (.object stored.entries) check' root' parentType property = .ok outcome := by
  rcases levelOutcome_inv returns with ⟨falsy | ⟨missing, never⟩, rfl⟩ | ⟨visited, ⟨hidden, rfl⟩ | ⟨shown, displayed⟩⟩
  · exact absurd level.truthy falsy
  · exact levelOutcome_of_skipped (.inr ⟨stored_of_missing collected missing, never⟩) check' root'
  · by_cases asked : parentType ≠ some .collection ∨ left.get property.name ≠ undefined
    · exact levelOutcome_of_hidden ((level.alike property member asked).trans hidden)
    · -- a hidden value inside a collection is gone
      rw [not_or, not_not, not_not] at asked
      exact levelOutcome_of_skipped (.inr ⟨level.stored_of_left saved collected asked.2, .inr asked.1⟩) check' root'
  · obtain ⟨inCollection, again⟩ := level.displayed_stored saved collected member shown visited displayed
    have visited' : ¬ IsSkipped true (.object stored.entries : NodeParameterValueType Number) parentType
        property.name := by
      rintro (falsy | ⟨missing, impossible | nested⟩)
      · exact falsy rfl
      · exact impossible rfl
      · exact (inCollection nested).2 missing
    have asked : parentType ≠ some .collection ∨ left.get property.name ≠ undefined := by
      by_cases nested : parentType = some .collection
      · exact .inr (inCollection nested).1
      · exact .inl nested
    rw [levelOutcome_of_displayed visited' ((level.alike property member asked).trans shown)]
    exact again

end

theorem reloads : @Reloads _ _ _ runtime node list nodeValues root root' whole parentType := by
  intro loaded stored returns saves
  obtain ⟨check₀, order, isLevel, outcomes⟩ := IsLevel.of_withDefaults returns
  obtain rfl := Except.ok.inj (isLevel.checked.symm.trans level.checked)
  have saveOutcomes : ∀ property ∈ list, ∃ outcome,
      levelOutcome runtime node false nodeValues check₀ root parentType property = .ok outcome := by
    intro property member
    obtain ⟨outcome, first⟩ := outcomes property member
    exact levelOutcome_saves (fun nested _ => saves_of_loads nested) first
  cases isWhole : asIs with
  | true =>
    have same : left = nodeValues := by rw [level.isLeft, if_pos isWhole]
    have again : resolveLevel runtime node true list nodeValues root' parentType = .ok loaded :=
      isLevel.withDefaults_congr (same ▸ level.checked')
        (fun property member outcome first => level.reloads_whole isWhole member first) returns
    cases whole with
    | true => exact again
    | false =>
      -- a fixed collection makes the save take the level as it is
      have wholeLevel := level.isAsIs
      rw [isWhole, Bool.false_or] at wholeLevel
      have left := isLevel.withoutDefaults_returned saveOutcomes ((savesWhole_iff level.truthy).mp wholeLevel.symm)
      obtain rfl := Except.ok.inj (left.symm.trans saves)
      exact again
  | false =>
    have notWhole := level.isAsIs
    rw [isWhole, eq_comm, Bool.or_eq_false_iff] at notWhole
    obtain ⟨rfl, notSaved⟩ := notWhole
    have stays : ∀ property ∈ list, ∀ value,
        levelOutcome runtime node false nodeValues check₀ root parentType property ≠ .ok (.returned value) := by
      intro property member value returned
      obtain rfl := (levelOutcome_returned returned).2.2.2.1
      rw [(savesWhole_iff level.truthy).mpr ⟨property, member, returned⟩] at notSaved
      cases notSaved
    obtain ⟨collection, collects, collected⟩ := isLevel.collected saveOutcomes stays
      (level.sets_functional isWhole)
    obtain rfl := Except.ok.inj (collects.symm.trans saves)
    exact isLevel.withDefaults_congr (level.checked_stored isWhole collected)
      (fun property member outcome first => level.reloads_stored isWhole collected member first) returns

end StableLevel

end

/-! ### Nothing that is stored -/

variable {root root' : Option (NodeParameterValueType Number)}

theorem displayValues_of_skipped
    {nodeValues nodeValues' : NodeParameterValueType Number}
    (skipped : ∀ name, IsSkipped true nodeValues parentType name)
    (skipped' : ∀ name, IsSkipped true nodeValues' parentType name) :
    displayValues runtime node list nodeValues' root' parentType =
      displayValues runtime node list nodeValues root parentType := by
  have isSkipped : ∀ {value : NodeParameterValueType Number} {name : String}, IsSkipped true value parentType name →
      ¬ value.isTruthy ∨ value.get name = undefined ∧ parentType = some .collection := by
    rintro value name (falsy | ⟨missing, impossible | nested⟩)
    · exact .inl falsy
    · exact absurd rfl impossible
    · exact .inr ⟨missing, nested⟩
  have same : addDisplayValue runtime node list nodeValues' root' parentType =
      addDisplayValue runtime node list nodeValues root parentType := by
    funext found index
    unfold addDisplayValue
    split
    · rfl
    next head type _ =>
      rw [if_pos (isSkipped (skipped head.name)), if_pos (isSkipped (skipped' head.name))]
    · rfl
  rw [displayValues, displayValues, same]

theorem reloads_of_nothing {nodeValues : NodeParameterValueType Number} {whole : Bool}
    (falsy : nodeValues.isTruthy = false)
    (empty : whole = true ∨ parentType = some .collection ∨ ∃ check,
      displayValues runtime node list (.object []) root' parentType = .ok check ∧
        ∀ property ∈ list, displays runtime node check root' property = .ok false) :
    @Reloads _ _ _ runtime node list nodeValues root root' whole parentType := by
  intro loaded saved returns saves
  obtain ⟨check, order, level, _⟩ := IsLevel.of_withDefaults returns
  have skipped : ∀ returnDefaults name, IsSkipped returnDefaults nodeValues parentType name :=
    fun _ _ => .inl (by simp [falsy])
  -- what is loaded is empty, so it is enough that the reload skips every property, too
  have again : ∀ {nodeValues' : NodeParameterValueType Number} {check' : INodeParameters Number},
      displayValues runtime node list nodeValues' root' parentType = .ok check' →
      (∀ property ∈ list,
        levelOutcome runtime node true nodeValues' check' root' parentType property = .ok .skip) →
      resolveLevel runtime node true list nodeValues' root' parentType = .ok loaded := by
    intro nodeValues' check' checked' skips
    refine level.withDefaults_congr checked' (fun property member outcome first => ?_) returns
    rw [levelOutcome_of_skipped (skipped true property.name)] at first
    rw [skips property member, first]
  have savedNothing : saved = .object [] := by
    obtain ⟨check', _, ⟨⟨property, _, left⟩, _⟩ | ⟨_, _, plain, entries⟩⟩ := resolveLevel_inv saves
    · exact absurd (skipped false property.name) (levelOutcome_returned left).1
    · have noEntries := entries.mpr fun property member value full set => by
        rw [levelOutcome_of_skipped (skipped false property.name)] at set
        cases set
      cases saved with
      | object fields =>
        change fields = [] at noEntries
        rw [noEntries]
      | _ => cases plain
  cases isWhole : whole with
  | true =>
    exact again ((displayValues_of_skipped (skipped true) (skipped true)).trans level.checked)
      fun property _ => levelOutcome_of_skipped (skipped true property.name) check root'
  | false =>
    rw [savedNothing]
    rcases empty with impossible | nested | ⟨check', checked', hidden⟩
    · rw [isWhole] at impossible
      cases impossible
    · have skipped' : ∀ name, IsSkipped true (.object [] : NodeParameterValueType Number) parentType name :=
        fun name => .inr ⟨rfl, .inr nested⟩
      exact again ((displayValues_of_skipped (skipped true) skipped').trans level.checked)
        fun property _ => levelOutcome_of_skipped (skipped' property.name) check root'
    · exact again checked' fun property member => levelOutcome_of_hidden (hidden property member)

theorem Stable.reloads {nodeValues : NodeParameterValueType Number} {whole : Bool}
    (stable : Stable runtime node list nodeValues root root' whole parentType) :
    @Reloads _ _ _ runtime node list nodeValues root root' whole parentType := by
  induction stable with
  | nothing falsy empty => exact reloads_of_nothing falsy empty
  | level truthy checked isAsIs isLeft checked' alike distinct marked _ _ kept collections items =>
    have level : StableLevel _ _ _ _ _ _ _ _ _ _ :=
      { truthy, checked, isAsIs, isLeft, checked', alike, distinct, marked, collections, items, kept }
    exact level.reloads

end

end

/-! ## The parameters of a node -/

namespace TwoModes

def runtime : DisplayRuntime Nat :=
  { get := fun value path => value.get path
    less := fun _ _ => false
    lessOrEqual := fun _ _ => false
    regexTest := fun _ _ => .ok true }

def nodeProperties : List (INodeProperties Nat) :=
  [.simple ⟨"mode", .string "basic", none⟩ .options,
    .simple ⟨"text", .string "", some { «show» := some [("mode", [.value (.string "advanced")])] }⟩ .string]

def nodeValues : NodeParameterValueType Nat := .object [("mode", .string "advanced"), ("text", .string "")]

def displayed : INodeParameters Nat := ⟨[("mode", .string "advanced"), ("text", .string "")], by decide⟩

/-- The text is the default value and gets left out. -/
def left : NodeParameterValueType Nat := .object [("mode", .string "advanced")]

theorem stable : Stable runtime none nodeProperties nodeValues none none false none := by
  have checked : displayValues runtime none nodeProperties nodeValues none none = .ok displayed := by decide +kernel
  have checked' : displayValues runtime none nodeProperties left none none = .ok displayed := by decide +kernel
  have isAsIs : false = (false || savesWhole runtime none nodeProperties nodeValues displayed none) := by
    decide +kernel
  have isLeft : left = if false then nodeValues else
      keptValues runtime none nodeProperties nodeValues displayed none none := by decide +kernel
  refine .level (by decide) checked isAsIs isLeft checked' (fun _ _ _ => rfl) ?_ ?_ ?_ ?_ ?_
  · intro _ property member notSimple
    simp only [nodeProperties, List.mem_cons, List.not_mem_nil, or_false] at member
    rcases member with rfl | rfl
    · exact absurd rfl (notSimple _ _)
    · exact absurd rfl (notSimple _ _)
  · intro _ _ head member
    simp [nodeProperties] at member
  · intro head multipleValues options member
    simp [nodeProperties] at member
  · intro head multipleValues options member
    simp [nodeProperties] at member
  · intro _ head multipleValues options member
    simp [nodeProperties] at member

end TwoModes

/-! A fixed collection that is not declared to allow one value, with the default value in it. -/

namespace DefaultItem

def nodeProperties : List (INodeProperties Nat) :=
  [.fixedCollection ⟨"values", .object [], none⟩ none
    [("value", [.simple ⟨"text", .string "", none⟩ .string])]]

def nodeValues : NodeParameterValueType Nat := .object [("values", .object [("value", .object [("text", .string "")])])]

end DefaultItem

end N8n.NodeHelpers
