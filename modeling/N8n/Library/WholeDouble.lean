import Mathlib.Algebra.Order.Ring.Nat
import Mathlib.Data.List.Induction
import Mathlib.Data.List.TakeWhile

/-! # Whole numbers in double precision

The integers among the floating-point numbers of 53 bits, with both infinities: how a
number is rounded, what adding one gives, the text of a number in the fewest digits
that are read back as it, and `parseInt`.
-/

namespace WholeDouble

/-! ## Rounding -/

/-- The distance of the doubles around a number, where it is not less than one. -/
def unit (n : Nat) : Nat := 2 ^ (n.log2 - 52)

/-- The nearest number with 53 significant bits, and of two the one with an even last bit. -/
def roundNat (n : Nat) : Nat :=
  let low := n / unit n
  let rest := n % unit n
  if unit n < 2 * rest ∨ unit n = 2 * rest ∧ low % 2 = 1 then (low + 1) * unit n else low * unit n

theorem unit_pos (n : Nat) : 0 < unit n := Nat.two_pow_pos _

variable {n : Nat}

theorem unit_of_lt (small : n < 2 ^ 53) : unit n = 1 := by
  have bits : n.log2 ≤ 52 := by
    by_cases isZero : n = 0
    · simp [isZero]
    · exact Nat.lt_succ_iff.mp ((Nat.log2_lt isZero).mpr small)
  rw [unit, Nat.sub_eq_zero_of_le bits, pow_zero]

theorem unit_eq {n bits : Nat} (low : 2 ^ (bits + 52) ≤ n) (high : n < 2 ^ (bits + 53)) : unit n = 2 ^ bits := by
  have positive : n ≠ 0 := (lt_of_lt_of_le (Nat.two_pow_pos _) low).ne'
  rw [unit, (Nat.log2_eq_iff positive).mpr ⟨low, high⟩, Nat.add_sub_cancel]

theorem roundNat_of_dvd (whole : unit n ∣ n) : roundNat n = n := by
  have positive := unit_pos n
  rw [roundNat, Nat.mod_eq_zero_of_dvd whole, if_neg (by omega), Nat.div_mul_cancel whole]

theorem roundNat_cases (n : Nat) : roundNat n = n / unit n * unit n ∨ roundNat n = (n / unit n + 1) * unit n := by
  rw [roundNat]
  split
  · exact .inr rfl
  · exact .inl rfl

theorem unit_dvd_of_eq (rounded : roundNat n = n) : unit n ∣ n := by
  obtain isLow | isHigh := roundNat_cases n
  · exact ⟨n / unit n, by rw [mul_comm, ← isLow, rounded]⟩
  · exact ⟨n / unit n + 1, by rw [mul_comm, ← isHigh, rounded]⟩

theorem div_unit_lt (n : Nat) : n / unit n < 2 ^ 53 := by
  rw [Nat.div_lt_iff_lt_mul (unit_pos n), unit, ← pow_add]
  exact lt_of_lt_of_le Nat.lt_log2_self (Nat.pow_le_pow_right (by decide) (by omega))

theorem unit_dvd_mul {mantissa : Nat} (small : mantissa ≤ 2 ^ 53) (exponent : Nat) :
    unit (mantissa * 2 ^ exponent) ∣ mantissa * 2 ^ exponent := by
  obtain rfl | below := small.eq_or_lt
  · rw [← pow_add, unit, Nat.log2_two_pow]
    exact pow_dvd_pow 2 (by omega)
  · by_cases isZero : mantissa = 0
    · simp [isZero]
    · have bits : (mantissa * 2 ^ exponent).log2 < 53 + exponent := by
        rw [Nat.log2_lt (Nat.mul_ne_zero isZero (Nat.two_pow_pos _).ne'), pow_add]
        exact Nat.mul_lt_mul_of_pos_right below (Nat.two_pow_pos _)
      exact Dvd.dvd.mul_left (pow_dvd_pow 2 (by omega)) mantissa

theorem roundNat_roundNat (n : Nat) : roundNat (roundNat n) = roundNat n := by
  have below := div_unit_lt n
  obtain isLow | isHigh := roundNat_cases n
  · rw [isLow]
    exact roundNat_of_dvd (unit_dvd_mul below.le _)
  · rw [isHigh]
    exact roundNat_of_dvd (unit_dvd_mul below _)

theorem roundNat_le (n : Nat) : roundNat n ≤ 2 * n := by
  by_cases isZero : n = 0
  · subst isZero
    decide
  · have unit_le : unit n ≤ n :=
      le_trans (Nat.pow_le_pow_right (by decide) (Nat.sub_le _ _)) (Nat.log2_self_le isZero)
    have low_le := Nat.div_mul_le_self n (unit n)
    obtain isLow | isHigh := roundNat_cases n
    · omega
    · rw [isHigh, Nat.add_mul]
      omega

theorem le_roundNat (n : Nat) : n ≤ 2 * roundNat n := by
  by_cases isZero : n = 0
  · subst isZero
    decide
  · have unit_le : unit n ≤ n :=
      le_trans (Nat.pow_le_pow_right (by decide) (Nat.sub_le _ _)) (Nat.log2_self_le isZero)
    have whole := Nat.div_add_mod' n (unit n)
    have rest := Nat.mod_lt n (unit_pos n)
    have least : unit n ≤ n / unit n * unit n :=
      Nat.le_mul_of_pos_left _ (Nat.div_pos unit_le (unit_pos n))
    obtain isLow | isHigh := roundNat_cases n
    · omega
    · rw [isHigh, Nat.add_mul]
      omega

/-- Adding one to a double gives the same double, or a larger one as long as the doubles are close enough. -/
theorem roundNat_succ (rounded : roundNat n = n) :
    roundNat (n + 1) = n ∨ n < roundNat (n + 1) ∧ n < 2 ^ 54 := by
  have whole := unit_dvd_of_eq rounded
  obtain small | large := Nat.lt_or_ge n (2 ^ 53)
  · refine .inr ⟨?_, by omega⟩
    obtain below | last := Nat.lt_or_ge (n + 1) (2 ^ 53)
    · rw [roundNat_of_dvd (by rw [unit_of_lt below]; exact one_dvd _)]
      omega
    · obtain rfl : n = 2 ^ 53 - 1 := by omega
      decide
  · -- above, one is at most half of the distance to the next double
    obtain middle | far := Nat.lt_or_ge n (2 ^ 54)
    · have even : 2 ∣ n := by rwa [@unit_eq n 1 large middle, pow_one] at whole
      have unit_two : unit (n + 1) = 2 := @unit_eq (n + 1) 1 (by omega) (by omega)
      have cases := roundNat_cases (n + 1)
      rw [unit_two] at cases
      omega
    · left
      have positive : n ≠ 0 := by omega
      have bits : 54 ≤ n.log2 := (Nat.le_log2 positive).mpr far
      have four : 4 ∣ unit n := pow_dvd_pow 2 (show 2 ≤ n.log2 - 52 by omega)
      have same : unit (n + 1) = unit n := by
        have even : 2 ∣ n := Dvd.dvd.trans (by decide) (four.trans whole)
        have power : 2 ∣ 2 ^ (n.log2 + 1) := dvd_pow_self 2 (by omega)
        have above := @Nat.lt_log2_self n
        have low := Nat.log2_self_le positive
        rw [unit, unit, (Nat.log2_eq_iff (by omega)).mpr ⟨Nat.le_succ_of_le low, by omega⟩]
      obtain ⟨quotient, isMultiple⟩ := whole
      have wide : 4 ≤ unit n := Nat.le_of_dvd (unit_pos n) four
      obtain ⟨low, rest⟩ : (n + 1) / unit n = quotient ∧ (n + 1) % unit n = 1 :=
        (Nat.div_mod_unique (unit_pos n)).mpr ⟨by omega, by omega⟩
      rw [roundNat, same, low, rest, if_neg (by omega), mul_comm, ← isMultiple]

/-! ## Numbers -/

/-- The greatest double has 1024 bits. -/
def IsDouble (n : Nat) : Prop := roundNat n = n ∧ n.log2 < 1024

instance (n : Nat) : Decidable (IsDouble n) := inferInstanceAs (Decidable (_ ∧ _))

/-- A whole number in double precision, or an infinity. -/
inductive Number
  | finite (value : Int) (isDouble : IsDouble value.natAbs)
  | infinite (negative : Bool)
deriving DecidableEq

namespace Number

def lt : Number → Number → Bool
  | finite value _, finite value' _ => value < value'
  | finite _ _, infinite negative => !negative
  | infinite negative, finite _ _ => negative
  | infinite negative, infinite negative' => negative && !negative'

/-- The number with a sign and the magnitude that is nearest. -/
def ofNat (negative : Bool) (magnitude : Nat) : Number :=
  if fits : (roundNat magnitude).log2 < 1024 then
    if negative then finite (-(roundNat magnitude)) (by rw [Int.natAbs_neg]; exact ⟨roundNat_roundNat _, fits⟩)
    else finite (roundNat magnitude) ⟨roundNat_roundNat _, fits⟩
  else infinite negative

/-- The sum with one. -/
def succ : Number → Number
  | finite value _ => ofNat (value + 1 < 0) (value + 1).natAbs
  | infinite negative => infinite negative

theorem lt_irrefl (number : Number) : number.lt number = false := by
  cases number with
  | finite value isDouble => simp [lt]
  | infinite negative => cases negative <;> rfl

theorem lt_trans {first second third : Number} (left : first.lt second = true) (right : second.lt third = true) :
    first.lt third = true := by
  cases first with
  | finite value isDouble =>
    cases second with
    | finite value' isDouble' =>
      cases third with
      | finite value'' isDouble'' =>
        simp only [lt, decide_eq_true_eq] at left right ⊢
        omega
      | infinite negative => exact right
    | infinite negative =>
      cases third with
      | finite value'' isDouble'' => simp_all [lt]
      | infinite negative' => cases negative <;> simp_all [lt]
  | infinite negative =>
    cases second with
    | finite value' isDouble' =>
      cases third with
      | finite value'' isDouble'' => exact left
      | infinite negative' => simp_all [lt]
    | infinite negative' =>
      cases third with
      | finite value'' isDouble'' => simp_all [lt]
      | infinite negative'' => simp_all [lt]

theorem eq_of_not_lt {first second : Number} (notBelow : first.lt second = false) (notAbove : second.lt first = false) :
    first = second := by
  cases first with
  | finite value isDouble =>
    cases second with
    | finite value' isDouble' =>
      simp only [lt, decide_eq_false_iff_not] at notBelow notAbove
      obtain rfl : value = value' := by omega
      rfl
    | infinite negative => simp_all [lt]
  | infinite negative =>
    cases second with
    | finite value' isDouble' => simp_all [lt]
    | infinite negative' => cases negative <;> simp_all [lt]

/-- `if (number > max) max = number` -/
def larger (max number : Number) : Number := if max.lt number then number else max

theorem foldl_larger (numbers : List Number) (start : Number) :
    (numbers.foldl larger start = start ∨ numbers.foldl larger start ∈ numbers) ∧
      ∀ number, number = start ∨ number ∈ numbers → (numbers.foldl larger start).lt number = false := by
  induction numbers using List.reverseRecOn with
  | nil =>
    refine ⟨.inl rfl, ?_⟩
    rintro number (rfl | member)
    · exact lt_irrefl number
    · cases member
  | append_singleton numbers last ih =>
    obtain ⟨isOne, above⟩ := ih
    rw [List.foldl_append, List.foldl_cons, List.foldl_nil, larger]
    cases isLarger : (numbers.foldl larger start).lt last with
    | true =>
      refine ⟨.inr (by simp), fun number isNumber => Bool.eq_false_iff.mpr fun below => ?_⟩
      have further := lt_trans isLarger below
      obtain rfl | member := isNumber
      · rw [above _ (.inl rfl)] at further
        cases further
      · obtain inside | isLast := List.mem_append.mp member
        · rw [above _ (.inr inside)] at further
          cases further
        · obtain rfl := List.mem_singleton.mp isLast
          rw [if_pos rfl, lt_irrefl] at below
          cases below
    | false =>
      refine ⟨isOne.imp id fun member => List.mem_append_left _ member, ?_⟩
      rintro number (isStart | member)
      · exact above number (.inl isStart)
      · obtain inside | isLast := List.mem_append.mp member
        · exact above number (.inr inside)
        · obtain rfl := List.mem_singleton.mp isLast
          exact isLarger

theorem succ_finite {value : Nat} (isDouble : IsDouble value) :
    (finite value isDouble).succ = finite value isDouble ∨
      ∃ (next : Nat) (isDouble' : IsDouble next), (finite value isDouble).succ = finite next isDouble' ∧ value < next ∧
        next ≤ 2 ^ 55 := by
  have sum : (finite value isDouble).succ = ofNat false (value + 1) := by
    have notNegative : ¬((value : Int) + 1 < 0) := by omega
    simp only [succ, notNegative, decide_false]
    rfl
  rw [sum]
  obtain same | ⟨above, small⟩ := roundNat_succ isDouble.1
  · left
    simp [ofNat, same, isDouble.2]
  · have bound := roundNat_le (value + 1)
    have fits : (roundNat (value + 1)).log2 < 1024 := by
      have few : (roundNat (value + 1)).log2 < 56 := (Nat.log2_lt (by omega)).mpr (by omega)
      omega
    exact .inr ⟨roundNat (value + 1), ⟨roundNat_roundNat _, fits⟩, by simp [ofNat, fits], above, by omega⟩

end Number

/-! ## Texts -/

/-- The multiple of a power of ten that is nearest to the number, among those read as the number. -/
def nearestMultiple (n exponent : Nat) : Option Nat :=
  let low := n / 10 ^ exponent
  let below := n - low * 10 ^ exponent
  let above := (low + 1) * 10 ^ exponent - n
  if roundNat (low * 10 ^ exponent) = n then
    if roundNat ((low + 1) * 10 ^ exponent) = n ∧ (above < below ∨ above = below ∧ low % 2 = 1) then some (low + 1)
    else some low
  else if roundNat ((low + 1) * 10 ^ exponent) = n then some (low + 1)
  else none

/-- The fewest digits that are read as the number, and the exponent of the power of ten. -/
def shortestFrom (n : Nat) : Nat → Nat × Nat
  | 0 => (n, 0)
  | exponent + 1 =>
    match nearestMultiple n (exponent + 1) with
    | some mantissa => (mantissa, exponent + 1)
    | none => shortestFrom n exponent

def exponentText (digits : List Char) (exponent : Nat) : List Char :=
  match digits with
  | first :: second :: rest => first :: '.' :: second :: rest ++ 'e' :: '+' :: Nat.toDigits 10 exponent
  | digits => digits ++ 'e' :: '+' :: Nat.toDigits 10 exponent

/-- `Number::toString` for the magnitude of a whole number. -/
def textNat (n : Nat) : List Char :=
  let (mantissa, exponent) := shortestFrom n n.log2
  let digits := Nat.toDigits 10 mantissa
  if digits.length + exponent ≤ 21 then digits ++ List.replicate exponent '0'
  else exponentText digits (digits.length + exponent - 1)

def signed (negative : Bool) (text : List Char) : List Char := if negative then '-' :: text else text

def Number.text : Number → List Char
  | finite value _ => signed (value < 0) (textNat value.natAbs)
  | infinite negative => signed negative "Infinity".toList

/-! ## Reading -/

/-- White space and line ends, as they are trimmed. -/
def isStrWhiteSpace (char : Char) : Bool :=
  char ∈ ['\t', '\n', '\x0b', '\x0c', '\r', ' ', '\u00a0', '\u1680', '\u2028', '\u2029', '\u202f', '\u205f',
    '\u3000', '\ufeff'] || ('\u2000' ≤ char && char ≤ '\u200a')

def hexDigit (char : Char) : Option Nat :=
  if char.isDigit then some (char.toNat - '0'.toNat)
  else if 'a' ≤ char ∧ char ≤ 'f' then some (char.toNat - 'a'.toNat + 10)
  else if 'A' ≤ char ∧ char ≤ 'F' then some (char.toNat - 'A'.toNat + 10)
  else none

/-- The magnitude at the start of a text without a sign, in base 16 after `0x`. -/
def readMagnitude (text : List Char) : Option Nat :=
  let hexadecimal (rest : List Char) :=
    let digits := rest.takeWhile fun char => (hexDigit char).isSome
    if digits = [] then none else some (digits.foldl (fun sum char => 16 * sum + (hexDigit char).getD 0) 0)
  match text with
  | '0' :: 'x' :: rest => hexadecimal rest
  | '0' :: 'X' :: rest => hexadecimal rest
  | text =>
    let digits := text.takeWhile Char.isDigit
    if digits = [] then none else some (Nat.ofDigitChars 10 digits 0)

/-- `parseInt` without a radix; `none` is `NaN`. -/
def parseInt (text : List Char) : Option Number :=
  match text.dropWhile isStrWhiteSpace with
  | '-' :: rest => (readMagnitude rest).map (.ofNat true)
  | '+' :: rest => (readMagnitude rest).map (.ofNat false)
  | rest => (readMagnitude rest).map (.ofNat false)

/-! ## A text is read as its number -/

theorem roundNat_of_nearestMultiple {n exponent mantissa : Nat} (found : nearestMultiple n exponent = some mantissa) :
    roundNat (mantissa * 10 ^ exponent) = n := by
  simp only [nearestMultiple] at found
  split at found
  · split at found
    · rename_i _ chosen
      exact Option.some.inj found ▸ chosen.1
    · rename_i isLow _
      exact Option.some.inj found ▸ isLow
  · split at found
    · rename_i _ isHigh
      exact Option.some.inj found ▸ isHigh
    · cases found

theorem roundNat_shortestFrom (rounded : roundNat n = n) (most : Nat) :
    roundNat ((shortestFrom n most).1 * 10 ^ (shortestFrom n most).2) = n := by
  induction most with
  | zero => simpa [shortestFrom] using rounded
  | succ exponent ih =>
    rw [shortestFrom]
    cases found : nearestMultiple n (exponent + 1) with
    | some mantissa => exact roundNat_of_nearestMultiple found
    | none => exact ih

/-- A number with few digits is written without an exponent. -/
theorem textNat_of_le (rounded : roundNat n = n) (small : n ≤ 2 ^ 55) :
    ∃ mantissa exponent, roundNat (mantissa * 10 ^ exponent) = n ∧
      textNat n = Nat.toDigits 10 mantissa ++ List.replicate exponent '0' := by
  by_cases isZero : n = 0
  · subst isZero
    exact ⟨0, 0, rfl, rfl⟩
  · have read := roundNat_shortestFrom rounded n.log2
    rw [textNat]
    generalize shortestFrom n n.log2 = shortest at read
    obtain ⟨mantissa, exponent⟩ := shortest
    simp only at read
    refine ⟨mantissa, exponent, read, if_pos ?_⟩
    have notZero : 0 < mantissa := by
      refine Nat.pos_of_ne_zero ?_
      rintro rfl
      exact isZero (by rw [← read, Nat.zero_mul]; rfl)
    have value_le := le_roundNat (mantissa * 10 ^ exponent)
    rw [read] at value_le
    have below : mantissa * 10 ^ exponent < 10 ^ 17 := lt_of_le_of_lt value_le (by omega)
    have few : exponent < 17 :=
      (Nat.pow_lt_pow_iff_right (by decide)).mp (lt_of_le_of_lt (Nat.le_mul_of_pos_left _ notZero) below)
    have digits : (Nat.toDigits 10 mantissa).length ≤ 17 - exponent := by
      rw [Nat.length_toDigits_le_iff (by decide) (by omega)]
      rw [show 10 ^ 17 = 10 ^ (17 - exponent) * 10 ^ exponent by rw [← pow_add, Nat.sub_add_cancel few.le]] at below
      exact Nat.lt_of_mul_lt_mul_right below
    omega

theorem not_isStrWhiteSpace_of_isDigit {char : Char} (isDigit : char.isDigit = true) :
    isStrWhiteSpace char = false := by
  refine Bool.eq_false_iff.mpr fun isSpace => ?_
  simp only [isStrWhiteSpace, Bool.or_eq_true, Bool.and_eq_true, decide_eq_true_eq] at isSpace
  obtain listed | ⟨above, _⟩ := isSpace
  · have none : ∀ space ∈ ['\t', '\n', '\x0b', '\x0c', '\r', ' ', '\u00a0', '\u1680', '\u2028', '\u2029', '\u202f',
        '\u205f', '\u3000', '\ufeff'], space.isDigit = false := by simp
    rw [none char listed] at isDigit
    cases isDigit
  · have low : char.toNat ≤ '9'.toNat := by
      simp only [Char.isDigit, Bool.and_eq_true, decide_eq_true_eq] at isDigit
      exact isDigit.2
    have high : '\u2000'.toNat ≤ char.toNat := above
    exact absurd (high.trans low) (by decide)

theorem readMagnitude_digits {digits : List Char} (allDigits : ∀ char ∈ digits, char.isDigit = true)
    (notEmpty : digits ≠ []) : readMagnitude digits = some (Nat.ofDigitChars 10 digits 0) := by
  have whole : digits.takeWhile Char.isDigit = digits := List.takeWhile_eq_self_iff.mpr allDigits
  rw [readMagnitude]
  · simp [whole, notEmpty]
  · rintro rest rfl
    exact absurd (allDigits 'x' (by simp)) (by decide)
  · rintro rest rfl
    exact absurd (allDigits 'X' (by simp)) (by decide)

theorem parseInt_digits {digits : List Char} (allDigits : ∀ char ∈ digits, char.isDigit = true)
    (notEmpty : digits ≠ []) :
    parseInt digits = some (.ofNat false (Nat.ofDigitChars 10 digits 0)) := by
  obtain ⟨first, rest, rfl⟩ := List.exists_cons_of_ne_nil notEmpty
  have isDigit := allDigits first List.mem_cons_self
  rw [parseInt, List.dropWhile_cons_of_neg (by simp [not_isStrWhiteSpace_of_isDigit isDigit])]
  split
  · rename_i same
    obtain ⟨rfl, _⟩ := List.cons.inj same
    exact absurd isDigit (by decide)
  · rename_i same
    obtain ⟨rfl, _⟩ := List.cons.inj same
    exact absurd isDigit (by decide)
  · rw [readMagnitude_digits allDigits notEmpty]
    rfl

theorem text_finite (isDouble : IsDouble n) : (Number.finite n isDouble).text = textNat n := by
  have notNegative : decide ((n : Int) < 0) = false := by simp
  rw [Number.text, notNegative]
  rfl

theorem isDigit_of_mem_toDigits_zeros {mantissa exponent : Nat} :
    ∀ char ∈ Nat.toDigits 10 mantissa ++ List.replicate exponent '0', char.isDigit = true := by
  intro char member
  obtain inside | inside := List.mem_append.mp member
  · exact Nat.isDigit_of_mem_toDigits (by omega) (by omega) inside
  · rw [List.eq_of_mem_replicate inside]
    decide

theorem isDigit_of_mem_text (isDouble : IsDouble n) (small : n ≤ 2 ^ 55) :
    ∀ char ∈ (Number.finite n isDouble).text, char.isDigit = true := by
  obtain ⟨mantissa, exponent, _, isText⟩ := textNat_of_le isDouble.1 small
  rw [text_finite, isText]
  exact isDigit_of_mem_toDigits_zeros

theorem parseInt_text (isDouble : IsDouble n) (small : n ≤ 2 ^ 55) :
    parseInt (Number.finite n isDouble).text = some (.finite n isDouble) := by
  obtain ⟨mantissa, exponent, read, isText⟩ := textNat_of_le isDouble.1 small
  have value : Nat.ofDigitChars 10 (Nat.toDigits 10 mantissa ++ List.replicate exponent '0') 0 =
      mantissa * 10 ^ exponent := by
    rw [Nat.ofDigitChars_append, Nat.ofDigitChars_ten_toDigits]
    exact Nat.ofDigitChars_replicate_zero.trans (Nat.mul_comm _ _)
  rw [text_finite, isText, parseInt_digits isDigit_of_mem_toDigits_zeros (by simp [Nat.toDigits_ne_nil]), value,
    Number.ofNat]
  simp [read, isDouble.2]

end WholeDouble
