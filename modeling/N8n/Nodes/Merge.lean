import Mathlib.Data.List.Induction
import N8n.Library.OrderedMap

/-! # Merge by fields

`findMatches` of `packages/nodes-base/nodes/Merge/v3/helpers/utils.ts`.  The pairs
of fields become a lookup by the name of the second field, so of the pairs with
one second field only the last counts.
-/

namespace N8n.Nodes.Merge

structure PairToMatch where
  field1 : String
  field2 : String
deriving DecidableEq

structure EntryMatches (ι : Type) where
  entry : ι
  foundMatches : List ι

structure FilteredData (ι : Type) where
  matched : List (EntryMatches ι) := []
  matched2 : List ι := []
  unmatched1 : List ι := []
  unmatched2 : List ι := []

structure MatchFieldsOptions where
  disableDotNotation : Bool := false
  multipleMatches : Option String := none
  outputDataFrom : Option String := none
  joinMode : Option String := none

/-- `(options.multipleMatches as string) || 'all'` is `'all'`. -/
def MatchFieldsOptions.allMatches (options : MatchFieldsOptions) : Bool :=
  options.multipleMatches ∈ [none, some "", some "all"]

/-- Every match of an entry is pushed on its own. -/
def MatchFieldsOptions.apart (options : MatchFieldsOptions) : Bool :=
  options.outputDataFrom = some "both" ∨ options.joinMode ∈ [some "enrichInput1", some "enrichInput2"]

/-- How entries are read and compared: `entry.json[key]`, `get` of lodash and `fuzzyCompare`. -/
structure Reading (ι ν : Type) where
  own : ι → String → Option ν
  get : ι → String → Option ν
  isEntriesEqual : Option ν → Option ν → Bool

variable {ι ν : Type} (reading : Reading ι ν) (options : MatchFieldsOptions)

def fieldValue (entry : ι) (field : String) : Option ν :=
  if options.disableDotNotation then reading.own entry field else reading.get entry field

/-- To assign `__proto__` sets the prototype of the lookup, which has no such key of its own. -/
def lookupOf (fieldsToMatch : List PairToMatch) (entry1 : ι) : OrderedMap String (Option ν) :=
  fieldsToMatch.foldl (fun lookup matchCase =>
    if matchCase.field2 = "__proto__" then lookup
    else lookup.set matchCase.field2 (fieldValue reading options entry1 matchCase.field1)) ∅

def isMatch (lookup : OrderedMap String (Option ν)) (entry2 : ι) : Bool :=
  lookup.entries.all fun (key, expectedValue) =>
    reading.isEntriesEqual expectedValue (fieldValue reading options entry2 key)

/-- The entries with this property, at their indices. -/
def findAllMatches (data : List ι) (isMatch : ι → Bool) : List (ι × Nat) :=
  data.zipIdx.filter fun entry => isMatch entry.1

def findFirstMatch (data : List ι) (isMatch : ι → Bool) : List (ι × Nat) :=
  (data.zipIdx.find? fun entry => isMatch entry.1).toList

def foundedMatches (data2 : List ι) (isMatch : ι → Bool) : List (ι × Nat) :=
  if options.allMatches then findAllMatches data2 isMatch else findFirstMatch data2 isMatch

def pushed (entry1 : ι) (found : List ι) : List (EntryMatches ι) :=
  if found.isEmpty then []
  else if options.apart then found.map fun entry2 => ⟨entry1, [entry2]⟩
  else [⟨entry1, found⟩]

/-- The data, and `matchedInInput2`. -/
structure Progress (ι : Type) extends FilteredData ι where
  matchedInInput2 : List Nat := []

/-- The body of the loop over the entries of input 1. -/
def visit (fieldsToMatch : List PairToMatch) (data2 : List ι) (progress : Progress ι) (entry1 : ι) : Progress ι :=
  let lookup := lookupOf reading options fieldsToMatch entry1
  if lookup.values.any Option.isNone then { progress with unmatched1 := progress.unmatched1 ++ [entry1] }
  else
    let founded := foundedMatches options data2 (isMatch reading options lookup)
    { progress with
      matchedInInput2 := progress.matchedInInput2 ++ founded.map Prod.snd
      matched := progress.matched ++ pushed options entry1 (founded.map Prod.fst)
      unmatched1 := if founded.isEmpty then progress.unmatched1 ++ [entry1] else progress.unmatched1 }

def findMatches (input1 input2 : List ι) (fieldsToMatch : List PairToMatch) : FilteredData ι :=
  let progress := input1.foldl (visit reading options fieldsToMatch input2) {}
  { progress.toFilteredData with
    matched2 := (input2.zipIdx.filter fun entry => progress.matchedInInput2.contains entry.2).map Prod.fst
    unmatched2 := (input2.zipIdx.filter fun entry => !progress.matchedInInput2.contains entry.2).map Prod.fst }

/-! ## The pairs that an exact match gives -/

/-- All first fields are defined, and every pair of fields has equal values. -/
def isPair (fieldsToMatch : List PairToMatch) (entry1 entry2 : ι) : Bool :=
  fieldsToMatch.all fun matchCase =>
    (fieldValue reading options entry1 matchCase.field1).isSome &&
      reading.isEntriesEqual (fieldValue reading options entry1 matchCase.field1)
        (fieldValue reading options entry2 matchCase.field2)

/-- The data in which the entries of input 1 are paired with these entries of input 2, by their indices. -/
def filteredBy (input1 input2 : List ι) (partners : ι → List (ι × Nat)) : FilteredData ι :=
  let isPaired := fun index => input1.any fun entry1 => (partners entry1).any fun entry2 => entry2.2 == index
  { matched := input1.flatMap fun entry1 => pushed options entry1 ((partners entry1).map Prod.fst)
    unmatched1 := input1.filter fun entry1 => (partners entry1).isEmpty
    matched2 := (input2.zipIdx.filter fun entry2 => isPaired entry2.2).map Prod.fst
    unmatched2 := (input2.zipIdx.filter fun entry2 => !isPaired entry2.2).map Prod.fst }

/-- The data are those of the exact pairs: of all of them, or of the first for each entry of input 1. -/
def MatchesExactly (input1 input2 : List ι) (fieldsToMatch : List PairToMatch) : Prop :=
  findMatches reading options input1 input2 fieldsToMatch =
    filteredBy options input1 input2 fun entry1 =>
      foundedMatches options input2 (isPair reading options fieldsToMatch entry1)

/-! ## The pairs that are found -/

/-- No later pair has the same second field, which is not `__proto__`. -/
def counts (fieldsToMatch : List PairToMatch) (matchCase : PairToMatch) : Bool :=
  matchCase.field2 ≠ "__proto__" ∧
    fieldsToMatch.reverse.find? (fun other => other.field2 = matchCase.field2) = some matchCase

def counting (fieldsToMatch : List PairToMatch) : List PairToMatch := fieldsToMatch.filter (counts fieldsToMatch)

variable {reading options} {fieldsToMatch : List PairToMatch} {entry1 entry2 : ι}

theorem mem_counting_concat (last matchCase : PairToMatch) :
    matchCase ∈ counting (fieldsToMatch ++ [last]) ↔
      (matchCase = last ∧ last.field2 ≠ "__proto__") ∨
        (matchCase.field2 ≠ last.field2 ∧ matchCase ∈ counting fieldsToMatch) := by
  by_cases same : last.field2 = matchCase.field2
  · have found : (fieldsToMatch ++ [last]).reverse.find? (fun other => other.field2 = matchCase.field2) =
        some last := by
      simp [same]
    simp only [counting, counts, List.mem_filter, found]
    grind
  · simp only [counting, counts, List.mem_filter, List.reverse_append, List.reverse_singleton,
      List.singleton_append, same, decide_false, List.find?_cons, List.mem_append]
    grind

theorem mem_lookupOf (key : String) (value : Option ν) :
    (key, value) ∈ (lookupOf reading options fieldsToMatch entry1).entries ↔
      ∃ matchCase ∈ counting fieldsToMatch, matchCase.field2 = key ∧
        fieldValue reading options entry1 matchCase.field1 = value := by
  induction fieldsToMatch using List.reverseRecOn with
  | nil => simp [lookupOf, counting]
  | append_singleton earlier last ih =>
    have isProto : ∀ matchCase ∈ counting earlier, matchCase.field2 ≠ "__proto__" := by
      grind [counting, counts]
    simp only [lookupOf, List.foldl_append, List.foldl_cons, List.foldl_nil, mem_counting_concat]
    split
    next proto =>
      rw [← lookupOf, ih]
      grind
    next =>
      rw [OrderedMap.mem_set, ← lookupOf, ih]
      grind

theorem isPair_counting :
    isPair reading options (counting fieldsToMatch) entry1 entry2 =
      (!(lookupOf reading options fieldsToMatch entry1).values.any Option.isNone &&
        isMatch reading options (lookupOf reading options fieldsToMatch entry1) entry2) := by
  rw [Bool.eq_iff_iff]
  simp only [isPair, List.all_eq_true, Bool.and_eq_true, Bool.not_eq_true', List.any_eq_false, isMatch,
    OrderedMap.mem_values, Prod.forall, mem_lookupOf]
  constructor
  · intro pairs
    refine ⟨?_, ?_⟩
    · rintro value ⟨key, matchCase, member, -, rfl⟩
      simp [Option.isSome_iff_ne_none.mp (pairs matchCase member).1]
    · rintro key value ⟨matchCase, member, rfl, rfl⟩
      exact (pairs matchCase member).2
  · rintro ⟨defined, equal⟩ matchCase member
    have isDefined := defined _ ⟨_, matchCase, member, rfl, rfl⟩
    exact ⟨by simpa [Option.isSome_iff_ne_none] using isDefined, equal _ _ ⟨matchCase, member, rfl, rfl⟩⟩

theorem isPair_counting_of_isPair (pair : isPair reading options fieldsToMatch entry1 entry2 = true) :
    isPair reading options (counting fieldsToMatch) entry1 entry2 = true := by
  rw [isPair, List.all_eq_true] at pair ⊢
  exact fun matchCase member => pair matchCase (List.mem_of_mem_filter member)

/-! ## The result of the loop -/

theorem visit_eq (data2 : List ι) (progress : Progress ι) :
    let partners := foundedMatches options data2 (isPair reading options (counting fieldsToMatch) entry1)
    visit reading options fieldsToMatch data2 progress entry1 =
      { progress with
        matchedInInput2 := progress.matchedInInput2 ++ partners.map Prod.snd
        matched := progress.matched ++ pushed options entry1 (partners.map Prod.fst)
        unmatched1 := if partners.isEmpty then progress.unmatched1 ++ [entry1] else progress.unmatched1 } := by
  intro partners
  have isPaired := funext fun entry2 => @isPair_counting _ _ reading options fieldsToMatch entry1 entry2
  rw [visit]
  cases missing : (lookupOf reading options fieldsToMatch entry1).values.any Option.isNone with
  | true =>
    have none : partners = [] := by
      simp only [missing, Bool.not_true, Bool.false_and] at isPaired
      simp [partners, isPaired, foundedMatches, findAllMatches, findFirstMatch]
    simp [none, pushed]
  | false =>
    simp only [missing, Bool.not_false, Bool.true_and] at isPaired
    simp [partners, isPaired]

theorem findMatches_eq (input1 input2 : List ι) :
    findMatches reading options input1 input2 fieldsToMatch =
      filteredBy options input1 input2 fun entry1 =>
        foundedMatches options input2 (isPair reading options (counting fieldsToMatch) entry1) := by
  let partners := fun entry1 => foundedMatches options input2 (isPair reading options (counting fieldsToMatch) entry1)
  have loop : ∀ progress : Progress ι, input1.foldl (visit reading options fieldsToMatch input2) progress =
      { progress with
        matchedInInput2 := progress.matchedInInput2 ++ input1.flatMap fun entry1 => (partners entry1).map Prod.snd
        matched := progress.matched ++ input1.flatMap fun entry1 =>
          pushed options entry1 ((partners entry1).map Prod.fst)
        unmatched1 := progress.unmatched1 ++ input1.filter fun entry1 => (partners entry1).isEmpty } := by
    induction input1 with
    | nil => simp
    | cons entry1 input1 ih =>
      intro progress
      rw [List.foldl_cons, ih, visit_eq]
      cases isNone : (partners entry1).isEmpty <;> simp [partners, isNone]
  have isPaired : ∀ index, (input1.flatMap fun entry1 => (partners entry1).map Prod.snd).contains index =
      input1.any fun entry1 => (partners entry1).any fun entry2 => entry2.2 == index := by
    intro index
    rw [Bool.eq_iff_iff]
    simp
  simp only [findMatches, loop, filteredBy, List.nil_append, isPaired, partners]

/-! ## When the pairs are exact -/

/-- The entries that are found are wanted: all of them, or the first. -/
def Agrees (options : MatchFieldsOptions) (input2 : List ι) (found wanted : ι → Bool) : Prop :=
  if options.allMatches then ∀ entry2 ∈ input2, found entry2 = true → wanted entry2 = true
  else ∀ entry2, input2.find? found = some entry2 → wanted entry2 = true

variable {input1 input2 : List ι} {found wanted : ι → Bool}

theorem map_fst_foundedMatches :
    (foundedMatches options input2 found).map Prod.fst =
      if options.allMatches then input2.filter found else (input2.find? found).toList := by
  have entries := List.zipIdx_map_fst 0 input2
  conv_rhs => rw [← entries]
  rw [foundedMatches]
  split
  · rw [findAllMatches, List.filter_map]
    rfl
  · rw [findFirstMatch, List.find?_map, Option.toList_map]
    rfl

theorem agrees_of_subset (subset : (foundedMatches options input2 found).map Prod.fst ⊆
    (foundedMatches options input2 wanted).map Prod.fst) : Agrees options input2 found wanted := by
  rw [map_fst_foundedMatches, map_fst_foundedMatches] at subset
  rw [Agrees]
  split at subset
  next all =>
    rw [if_pos all]
    exact fun entry2 member isFound => (List.mem_filter.mp (subset (List.mem_filter.mpr ⟨member, isFound⟩))).2
  next first =>
    rw [if_neg first]
    intro entry2 isFirst
    have isWanted : input2.find? wanted = some entry2 := by simpa [isFirst] using subset
    exact List.find?_some isWanted

theorem find?_eq_of_first {α : Type} {found wanted : α → Bool} {items : List α}
    (finds : ∀ item, wanted item = true → found item = true)
    (first : ∀ item, items.find? found = some item → wanted item = true) :
    items.find? found = items.find? wanted := by
  induction items with
  | nil => rfl
  | cons item items ih =>
    by_cases isFound : found item = true
    · have isWanted := first item (by simp [isFound])
      simp [isFound, isWanted]
    · have notWanted : ¬ wanted item = true := fun isWanted => isFound (finds item isWanted)
      simp only [List.find?_cons, isFound, notWanted]
      exact ih (by simpa [isFound] using first)

theorem foundedMatches_of_agrees (finds : ∀ item, wanted item = true → found item = true)
    (agrees : Agrees options input2 found wanted) :
    foundedMatches options input2 found = foundedMatches options input2 wanted := by
  rw [Agrees] at agrees
  rw [foundedMatches, foundedMatches]
  split at agrees
  next all =>
    rw [if_pos all, if_pos all]
    refine List.filter_congr fun entry member => Bool.eq_iff_iff.mpr ⟨agrees _ ?_, finds _⟩
    exact List.fst_mem_of_mem_zipIdx member
  next first =>
    rw [if_neg first, if_neg first, findFirstMatch, findFirstMatch]
    refine congrArg Option.toList (find?_eq_of_first (fun entry => finds entry.1) fun entry isFirst => agrees _ ?_)
    have entries := List.zipIdx_map_fst 0 input2
    rw [← entries, List.find?_map]
    exact congrArg (Option.map Prod.fst) isFirst

def matchedPairs (matched : List (EntryMatches ι)) : List (ι × ι) :=
  matched.flatMap fun entryMatches => entryMatches.foundMatches.map fun other => (entryMatches.entry, other)

theorem mem_matchedPairs (partners : ι → List (ι × Nat)) (entry1 entry2 : ι) :
    (entry1, entry2) ∈ matchedPairs (filteredBy options input1 input2 partners).matched ↔
      entry1 ∈ input1 ∧ entry2 ∈ (partners entry1).map Prod.fst := by
  have each : ∀ entry, matchedPairs (pushed options entry ((partners entry).map Prod.fst)) =
      (partners entry).map fun other => (entry, other.1) := by
    intro entry
    rw [matchedPairs, pushed]
    split
    next isEmpty => simp_all
    next => split <;> simp [List.map_eq_flatMap, List.flatMap_assoc]
  have pairs : matchedPairs (filteredBy options input1 input2 partners).matched =
      input1.flatMap fun entry => (partners entry).map fun other => (entry, other.1) := by
    rw [matchedPairs, filteredBy, List.flatMap_assoc]
    exact List.flatMap_congr fun entry _ => each entry
  rw [pairs]
  simp

theorem filteredBy_congr {first second : ι → List (ι × Nat)}
    (same : ∀ entry1 ∈ input1, first entry1 = second entry1) :
    filteredBy options input1 input2 first = filteredBy options input1 input2 second := by
  have matched : (input1.flatMap fun entry1 => pushed options entry1 ((first entry1).map Prod.fst)) =
      input1.flatMap fun entry1 => pushed options entry1 ((second entry1).map Prod.fst) :=
    List.flatMap_congr fun entry1 member => by rw [same entry1 member]
  have unmatched : input1.filter (fun entry1 => (first entry1).isEmpty) =
      input1.filter fun entry1 => (second entry1).isEmpty :=
    List.filter_congr fun entry1 member => by rw [same entry1 member]
  have paired : ∀ index, (input1.any fun entry1 => (first entry1).any fun entry2 => entry2.2 == index) =
      input1.any fun entry1 => (second entry1).any fun entry2 => entry2.2 == index := by
    intro index
    rw [Bool.eq_iff_iff, List.any_eq_true, List.any_eq_true]
    exact exists_congr fun entry1 => and_congr_right fun member => by rw [same entry1 member]
  simp only [filteredBy, matched, unmatched, paired]

theorem filteredBy_eq_iff {found wanted : ι → ι → Bool}
    (finds : ∀ entry1 entry2, wanted entry1 entry2 = true → found entry1 entry2 = true) :
    filteredBy options input1 input2 (fun entry1 => foundedMatches options input2 (found entry1)) =
        filteredBy options input1 input2 (fun entry1 => foundedMatches options input2 (wanted entry1)) ↔
      ∀ entry1 ∈ input1, Agrees options input2 (found entry1) (wanted entry1) := by
  constructor
  · intro same entry1 member
    refine agrees_of_subset fun entry2 isFound => ?_
    have pairs := fun partners => @mem_matchedPairs _ options input1 input2 partners entry1 entry2
    have isPaired := (pairs fun entry1 => foundedMatches options input2 (found entry1)).mpr ⟨member, isFound⟩
    rw [same, pairs] at isPaired
    exact isPaired.2
  · intro agrees
    exact filteredBy_congr fun entry1 member => foundedMatches_of_agrees (finds entry1) (agrees entry1 member)

/-- For all inputs, fields and comparisons, the items are matched exactly if and only if agreement in the
    pairs that count, which no later pair with the same second field replaces, is agreement in all of them:
    of any two items, or where only the first match is taken, of an item and its first match. -/
theorem matchesExactly_iff (reading : Reading ι ν) (options : MatchFieldsOptions) (input1 input2 : List ι)
    (fieldsToMatch : List PairToMatch) :
    MatchesExactly reading options input1 input2 fieldsToMatch ↔
      ∀ entry1 ∈ input1, Agrees options input2 (isPair reading options (counting fieldsToMatch) entry1)
        (isPair reading options fieldsToMatch entry1) := by
  rw [MatchesExactly, findMatches_eq]
  exact filteredBy_eq_iff fun _ _ => isPair_counting_of_isPair

/-! ### Two pairs with one second field -/

namespace Repeated

/-- Entries with their fields. -/
def plain : Reading (List (String × Nat)) Nat where
  own entry key := entry.lookup key
  get entry key := entry.lookup key
  isEntriesEqual a b := a == b

theorem not_matchesExactly :
    ¬ MatchesExactly plain {} [[("x", 1), ("y", 2)]] [[("k", 2)]] [⟨"x", "k"⟩, ⟨"y", "k"⟩] := by
  intro exactly
  have unmatched := congrArg FilteredData.unmatched1 exactly
  exact absurd unmatched (by decide)

end Repeated

/-! ## All matches -/

theorem unmatched2_filteredBy (found : ι → ι → Bool) (all : options.allMatches = true) :
    (filteredBy options input1 input2 fun entry1 => foundedMatches options input2 (found entry1)).unmatched2 =
      input2.filter fun entry2 => !input1.any fun entry1 => found entry1 entry2 := by
  have entries := List.zipIdx_map_fst 0 input2
  conv_rhs => rw [← entries]
  rw [List.filter_map]
  refine congrArg (List.map Prod.fst) (List.filter_congr fun entry member => ?_)
  have isEntry : ∀ item, (item, entry.2) ∈ input2.zipIdx ↔ item = entry.1 := by
    intro item
    rw [List.mem_zipIdx_iff_getElem?] at member ⊢
    simp [member, eq_comm]
  rw [Function.comp_apply, Bool.not_inj_iff, Bool.eq_iff_iff]
  simp only [foundedMatches, all, if_true, findAllMatches, List.any_eq_true, List.mem_filter, Prod.exists, beq_iff_eq]
  grind

end N8n.Nodes.Merge
