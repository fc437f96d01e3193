import N8n.Library.WholeDouble

/-! # Unique names

`getUniqueName` in `packages/cli/src/services/naming.service.ts`.  A new workflow or
credential gets the requested name, or that name with a number, from the names that
begin with it.  A name is the list of its characters.
-/

namespace N8n.NamingService

open WholeDouble

/-- What is before and after the first occurrence of a separator that is not empty. -/
def cut (separator : List Char) : List Char → Option (List Char × List Char)
  | [] => none
  | char :: rest =>
    if separator.isPrefixOf (char :: rest) then some ([], (char :: rest).drop separator.length)
    else (cut separator rest).map fun parts => (char :: parts.1, parts.2)

/-- `const [_, strSuffix] = name.split(separator)` -/
def secondPiece (separator name : List Char) : Option (List Char) :=
  match cut separator name with
  | none => none
  | some (_, after) =>
    match cut separator after with
    | none => some after
    | some (second, _) => some second

def findStartingWith (names : List (List Char)) (requestedName : List Char) : List (List Char) :=
  names.filter fun name => requestedName.isPrefixOf name

/-- `[requestedName, number].join(' ')` -/
def join (requestedName : List Char) (number : Number) : List Char := requestedName ++ ' ' :: number.text

/-- `parseInt(strSuffix)`; `none` is `NaN`, also for a name that has no suffix. -/
def numSuffix (requestedName name : List Char) : Option Number :=
  (secondPiece (requestedName ++ [' ']) name).bind parseInt

def two : Number := .finite 2 (by decide)

def maxSuffix (requestedName : List Char) (found : List (List Char)) : Number :=
  found.foldl (fun max name =>
    match numSuffix requestedName name with
    | none => max
    | some number => Number.larger max number) two

def getUniqueName (names : List (List Char)) (requestedName : List Char) : List Char :=
  match findStartingWith names requestedName with
  | [] => requestedName
  | [_] => join requestedName two
  | found => join requestedName (maxSuffix requestedName found).succ

/-! ## New names -/

/-- The name is the requested one, or that one with a number, and does not exist yet. -/
def GivesNewName (names : List (List Char)) (requestedName : List Char) : Prop :=
  (getUniqueName names requestedName = requestedName ∨
    ∃ number, getUniqueName names requestedName = join requestedName number) ∧
  getUniqueName names requestedName ∉ names

def suffixes (names : List (List Char)) (requestedName : List Char) : List Number :=
  (findStartingWith names requestedName).filterMap (numSuffix requestedName)

/-- The largest number behind the requested name, not less than two, is one to which adding one makes no difference, and
the requested name with it exists. -/
def Exhausted (names : List (List Char)) (requestedName : List Char) : Prop :=
  ∃ number ∈ suffixes names requestedName, number.lt two = false ∧
    (∀ other ∈ suffixes names requestedName, number.lt other = false) ∧
    number.succ = number ∧ join requestedName number ∈ names

/-! ## The pieces of a name -/

theorem cut_append {separator : List Char} (notEmpty : separator ≠ []) (rest : List Char) :
    cut separator (separator ++ rest) = some ([], rest) := by
  obtain ⟨first, more, rfl⟩ := List.exists_cons_of_ne_nil notEmpty
  rw [List.cons_append, cut, ← List.cons_append, if_pos (List.isPrefixOf_iff_prefix.mpr (List.prefix_append _ _)),
    List.drop_left]

theorem cut_eq_none {separator text : List Char} {char : Char} (inside : char ∈ separator) (absent : char ∉ text) :
    cut separator text = none := by
  induction text with
  | nil => rfl
  | cons first rest inductionHypothesis =>
    have notPrefix : ¬separator.isPrefixOf (first :: rest) = true := fun isPrefix =>
      absent ((List.isPrefixOf_iff_prefix.mp isPrefix).subset inside)
    rw [cut, if_neg notPrefix, inductionHypothesis fun member => absent (List.mem_cons_of_mem _ member)]
    rfl

theorem numSuffix_join {requestedName : List Char} {number : Number} (noSpace : ' ' ∉ number.text) :
    numSuffix requestedName (join requestedName number) = parseInt number.text := by
  have isJoined : join requestedName number = (requestedName ++ [' ']) ++ number.text := by simp [join]
  rw [numSuffix, secondPiece, isJoined, cut_append (by simp)]
  simp only
  rw [cut_eq_none (by simp) noSpace]
  rfl

theorem mem_findStartingWith_join {names : List (List Char)} {requestedName : List Char} {number : Number} :
    join requestedName number ∈ findStartingWith names requestedName ↔ join requestedName number ∈ names := by
  have isPrefix : requestedName.isPrefixOf (join requestedName number) = true :=
    List.isPrefixOf_iff_prefix.mpr (List.prefix_append _ _)
  simp [findStartingWith, isPrefix]

/-! ## The largest suffix -/

theorem maxSuffix_eq (names : List (List Char)) (requestedName : List Char) :
    maxSuffix requestedName (findStartingWith names requestedName) =
      (suffixes names requestedName).foldl Number.larger two := by
  rw [maxSuffix, suffixes, List.foldl_filterMap]
  congr
  funext max name
  cases numSuffix requestedName name <;> rfl

theorem maxSuffix_spec (names : List (List Char)) (requestedName : List Char) :
    (maxSuffix requestedName (findStartingWith names requestedName) = two ∨
        maxSuffix requestedName (findStartingWith names requestedName) ∈ suffixes names requestedName) ∧
      ∀ number, number = two ∨ number ∈ suffixes names requestedName →
        (maxSuffix requestedName (findStartingWith names requestedName)).lt number = false := by
  rw [maxSuffix_eq]
  exact Number.foldl_larger _ _

/-- Above two there is a next number whose text is read as it, unless adding one makes no difference. -/
theorem succ_cases {number : Number} (notBelow : number.lt two = false) :
    number.succ = number ∨
      ∃ next, number.succ = next ∧ number.lt next = true ∧ ' ' ∉ next.text ∧ parseInt next.text = some next := by
  cases number with
  | infinite negative => exact .inl rfl
  | finite value isDouble =>
    have atLeast : 2 ≤ value := Int.not_lt.mp (of_decide_eq_false notBelow)
    obtain ⟨value, rfl⟩ := Int.eq_ofNat_of_zero_le (show 0 ≤ value by omega)
    obtain same | ⟨next, isDouble', isNext, above, small⟩ := Number.succ_finite isDouble
    · exact .inl same
    · refine .inr ⟨_, isNext, by simpa [Number.lt] using above, fun space => ?_, parseInt_text isDouble' small⟩
      exact absurd (isDigit_of_mem_text isDouble' small ' ' space) (by decide)

/-- With several names the next number is taken exactly when the numbers are exhausted. -/
theorem join_succ_mem_iff (names : List (List Char)) (requestedName : List Char) :
    join requestedName (maxSuffix requestedName (findStartingWith names requestedName)).succ ∈ names ↔
      Exhausted names requestedName := by
  obtain ⟨isOne, notAbove⟩ := maxSuffix_spec names requestedName
  generalize maxSuffix requestedName (findStartingWith names requestedName) = largest at isOne notAbove
  constructor
  · intro taken
    obtain same | ⟨next, isNext, above, noSpace, read⟩ := succ_cases (notAbove two (.inl rfl))
    · have isSuffix : largest ∈ suffixes names requestedName := by
        refine isOne.resolve_left ?_
        rintro rfl
        exact absurd same (by decide)
      exact ⟨largest, isSuffix, notAbove two (.inl rfl), fun other member => notAbove other (.inr member), same,
        same ▸ taken⟩
    · -- the name with the next number would itself have the larger suffix
      rw [isNext] at taken
      have isSuffix : next ∈ suffixes names requestedName :=
        List.mem_filterMap.mpr ⟨_, mem_findStartingWith_join.mpr taken, (numSuffix_join noSpace).trans read⟩
      rw [notAbove next (.inr isSuffix)] at above
      cases above
  · rintro ⟨number, isSuffix, notBelow, greatest, same, exists_⟩
    have isLargest : largest = number := by
      refine Number.eq_of_not_lt (notAbove number (.inr isSuffix)) ?_
      obtain rfl | member := isOne
      · exact notBelow
      · exact greatest largest member
    rw [isLargest, same]
    exact exists_

/-- The name is new unless the only name found is the requested one with a two, or several are found and the numbers are
exhausted. -/
theorem givesNewName_iff (names : List (List Char)) (requestedName : List Char) :
    GivesNewName names requestedName ↔
      findStartingWith names requestedName ≠ [join requestedName two] ∧
        ¬(2 ≤ (findStartingWith names requestedName).length ∧ Exhausted names requestedName) := by
  rw [GivesNewName, getUniqueName]
  cases isFound : findStartingWith names requestedName with
  | nil =>
    have absent : requestedName ∉ names := by
      intro member
      have inFound : requestedName ∈ findStartingWith names requestedName := by
        simp [findStartingWith, member]
      rw [isFound] at inFound
      cases inFound
    simp [absent]
  | cons first more =>
    cases more with
    | nil =>
      have taken : join requestedName two ∈ names ↔ first = join requestedName two := by
        rw [← mem_findStartingWith_join, isFound, List.mem_singleton, eq_comm]
      simp [taken]
    | cons second rest =>
      have taken := join_succ_mem_iff names requestedName
      rw [isFound] at taken
      simp [taken]

/-- A single name that is the requested one with a two. -/
theorem not_givesNewName_two : ¬GivesNewName ["My workflow 2".toList] "My workflow".toList := by
  intro new
  exact absurd new.2 (by decide)

end N8n.NamingService
