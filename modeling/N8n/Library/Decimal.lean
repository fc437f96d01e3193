import Mathlib.Data.List.TakeWhile

/-! # Separated parts and decimal numbers

Texts put together from parts with a separator, and whole numbers written in
decimal digits and read back as `parseInt` reads them.
-/

namespace N8n.Text

/-! ## Parts with a separator -/

section Separator

variable {α : Type*} {separator : α} {first first' : List α}

theorem append_separator_inj (notIn : separator ∉ first) (notIn' : separator ∉ first') {rest rest' : List α}
    (equal : first ++ separator :: rest = first' ++ separator :: rest') : first = first' ∧ rest = rest' := by
  induction first generalizing first' with
  | nil =>
    cases first' with
    | nil => exact ⟨rfl, (List.cons.inj equal).2⟩
    | cons head tail => exact absurd (List.cons.inj equal).1 fun same => notIn' (same ▸ List.mem_cons_self)
  | cons head tail ih =>
    cases first' with
    | nil => exact absurd (List.cons.inj equal).1.symm fun same => notIn (same ▸ List.mem_cons_self)
    | cons head' tail' =>
      obtain ⟨rfl, tails⟩ := List.cons.inj equal
      obtain ⟨rfl, rests⟩ := ih (fun inside => notIn (List.mem_cons_of_mem _ inside))
        (fun inside => notIn' (List.mem_cons_of_mem _ inside)) tails
      exact ⟨rfl, rests⟩

theorem append_separator_last_inj {rest rest' : List α} (notIn : separator ∉ rest) (notIn' : separator ∉ rest')
    (equal : first ++ separator :: rest = first' ++ separator :: rest') : first = first' ∧ rest = rest' := by
  have reversed := congrArg List.reverse equal
  simp only [List.reverse_append, List.reverse_cons, List.append_assoc, List.singleton_append] at reversed
  obtain ⟨rests, firsts⟩ :=
    append_separator_inj (by rwa [List.mem_reverse]) (by rwa [List.mem_reverse]) reversed
  exact ⟨List.reverse_inj.mp firsts, List.reverse_inj.mp rests⟩

variable [DecidableEq α]

theorem splitOn_append_separator (notIn : separator ∉ first) (rest : List α) :
    (first ++ separator :: rest).splitOn separator = first :: rest.splitOn separator := by
  rw [List.splitOn_eq_splitOnP, List.splitOnP_append_cons_of_forall_mem _ separator (by simp), List.splitOn_eq_splitOnP]
  intro item member
  have different : item ≠ separator := by
    rintro rfl
    exact notIn member
  simpa using different

theorem splitOn_of_not_mem (notIn : separator ∉ first) : first.splitOn separator = [first] := by
  rw [List.splitOn_eq_splitOnP, List.splitOnP_eq_singleton]
  intro item member
  have different : item ≠ separator := by
    rintro rfl
    exact notIn member
  simpa using different

end Separator

/-! ## Decimal numbers -/

/-- The number that the digits at the start make; `none` when there are none. -/
def parseDigits (text : List Char) : Option Nat :=
  let digits := text.takeWhile Char.isDigit
  if digits = [] then none else some (Nat.ofDigitChars 10 digits 0)

/-- The number at the start of a text, after ASCII white space and with a sign. -/
def parseInt (text : List Char) : Option Int :=
  match text.dropWhile Char.isWhitespace with
  | '-' :: rest => (parseDigits rest).map fun number => -(number : Int)
  | '+' :: rest => (parseDigits rest).map Int.ofNat
  | rest => (parseDigits rest).map Int.ofNat

def printInt (number : Int) : List Char := (toString number).toList

theorem printInt_ofNat (number : Nat) : printInt number = Nat.toDigits 10 number := by
  simp [printInt, Int.toString_eq_repr, Int.repr]

theorem printInt_negSucc (number : Nat) : printInt (Int.negSucc number) = '-' :: Nat.toDigits 10 (number + 1) := by
  simp [printInt, Int.toString_eq_repr, Int.repr]

variable {char : Char}

theorem not_isWhitespace_of_isDigit (isDigit : char.isDigit = true) : char.isWhitespace = false := by
  by_contra whitespace
  have isSpace : ((char = ' ' ∨ char = '\t') ∨ char = '\r') ∨ char = '\n' := by
    simpa only [Char.isWhitespace, Bool.not_eq_false, Bool.or_eq_true, decide_eq_true_eq] using whitespace
  rcases isSpace with ((rfl | rfl) | rfl) | rfl <;> exact absurd isDigit (by decide)

theorem parseInt_of_isDigit {digit : Char} (isDigit : digit.isDigit = true) (rest : List Char) :
    parseInt (digit :: rest) = (parseDigits (digit :: rest)).map Int.ofNat := by
  have notSpace := not_isWhitespace_of_isDigit isDigit
  simp only [parseInt, List.dropWhile_cons, notSpace, Bool.false_eq_true, if_false]
  split
  next same =>
    obtain ⟨rfl, _⟩ := List.cons.inj same
    exact absurd isDigit (by decide)
  next same =>
    obtain ⟨rfl, _⟩ := List.cons.inj same
    exact absurd isDigit (by decide)
  · rfl

theorem parseDigits_toDigits (number : Nat) : parseDigits (Nat.toDigits 10 number) = some number := by
  have digits : (Nat.toDigits 10 number).takeWhile Char.isDigit = Nat.toDigits 10 number := by
    rw [List.takeWhile_eq_self_iff]
    exact fun digit member => Nat.isDigit_of_mem_toDigits (by omega) (by omega) member
  simp [parseDigits, digits, Nat.toDigits_ne_nil, Nat.ofDigitChars_toDigits]

theorem parseInt_printInt (number : Int) : parseInt (printInt number) = some number := by
  cases number with
  | ofNat number =>
    have isInt : Int.ofNat number = (number : Int) := rfl
    rw [isInt, printInt_ofNat]
    have digits := parseDigits_toDigits number
    have allDigits : ∀ digit ∈ Nat.toDigits 10 number, digit.isDigit = true := fun digit member =>
      Nat.isDigit_of_mem_toDigits (by omega) (by omega) member
    revert digits allDigits
    cases Nat.toDigits 10 number with
    | nil =>
      intro digits
      cases digits
    | cons digit rest =>
      intro digits allDigits
      rw [parseInt_of_isDigit (allDigits digit List.mem_cons_self), digits]
      rfl
  | negSucc number =>
    rw [printInt_negSucc]
    have negative : parseInt ('-' :: Nat.toDigits 10 (number + 1)) =
        (parseDigits (Nat.toDigits 10 (number + 1))).map fun number => -(number : Int) := rfl
    rw [negative, parseDigits_toDigits]
    rfl

theorem printInt_injective : Function.Injective printInt := by
  intro first second same
  have read := congrArg parseInt same
  rw [parseInt_printInt, parseInt_printInt] at read
  exact Option.some.inj read

theorem mem_printInt {number : Int} (member : char ∈ printInt number) :
    char.isDigit = true ∨ char = '-' := by
  cases number with
  | ofNat number =>
    have isInt : Int.ofNat number = (number : Int) := rfl
    rw [isInt, printInt_ofNat] at member
    exact Or.inl (Nat.isDigit_of_mem_toDigits (by omega) (by omega) member)
  | negSucc number =>
    rw [printInt_negSucc, List.mem_cons] at member
    rcases member with isSign | member
    · exact Or.inr isSign
    · exact Or.inl (Nat.isDigit_of_mem_toDigits (by omega) (by omega) member)

theorem not_mem_printInt (notDigit : char.isDigit = false) (notSign : char ≠ '-') (number : Int) :
    char ∉ printInt number := by
  intro member
  cases mem_printInt member with
  | inl isDigit =>
    rw [notDigit] at isDigit
    cases isDigit
  | inr isSign => exact notSign isSign

theorem toList_toString (number : Nat) : (toString number).toList = printInt number := by
  rw [printInt_ofNat, Nat.toString_eq_repr, Nat.toList_repr]

end N8n.Text
