import N8n.Library.Recurrence

/-! # The Gregorian calendar

Days are numbered from January 1 of the year 1, which is a Monday.  Years,
months and weeks are found from the numbers of their first days; weeks start on
Sunday, and the first week of a year is the one that contains January 1.
-/

namespace Calendar

/-! ## Years -/

def isLeapYear (year : Int) : Bool := year % 4 = 0 && (year % 100 ≠ 0 || year % 400 = 0)

def yearLength (year : Int) : Int := if isLeapYear year then 366 else 365

def yearStart (year : Int) : Int := 365 * (year - 1) + (year - 1) / 4 - (year - 1) / 100 + (year - 1) / 400

/-- The year of a day.  The average length of a year gives it, or one next to it. -/
def yearOf (day : Int) : Int :=
  let year := 400 * day / 146097 + 1
  if day < yearStart year then year - 1 else if yearStart (year + 1) ≤ day then year + 1 else year

theorem yearStart_succ (year : Int) : yearStart (year + 1) = yearStart year + yearLength year := by
  unfold yearStart yearLength isLeapYear
  split
  next leap =>
    simp only [Bool.and_eq_true, Bool.or_eq_true, decide_eq_true_eq] at leap
    omega
  next common =>
    simp only [Bool.and_eq_true, Bool.or_eq_true, decide_eq_true_eq, not_and, not_or] at common
    omega

theorem yearLength_cases (year : Int) : yearLength year = 365 ∨ yearLength year = 366 := by
  unfold yearLength
  split
  · exact Or.inr rfl
  · exact Or.inl rfl

theorem yearStart_strictMono : StrictMono yearStart := by
  apply strictMono_int_of_lt_succ
  intro year
  have isNext := yearStart_succ year
  have length := yearLength_cases year
  omega

variable (day : Int)

theorem yearOf_spec : yearStart (yearOf day) ≤ day ∧ day < yearStart (yearOf day + 1) := by
  have near : yearStart (400 * day / 146097 + 1 - 1) ≤ day ∧ day < yearStart (400 * day / 146097 + 1 + 1 + 1) := by
    unfold yearStart
    omega
  unfold yearOf
  simp only
  split
  next early => exact ⟨near.1, by simpa using early⟩
  next notEarly =>
    split
    next late => exact ⟨late, near.2⟩
    next notLate => exact ⟨by omega, by omega⟩

theorem yearOf_eq {day year : Int} (starts : yearStart year ≤ day) (ends : day < yearStart (year + 1)) :
    yearOf day = year := by
  obtain ⟨starts', ends'⟩ := yearOf_spec day
  have notLater : year < yearOf day + 1 := yearStart_strictMono.lt_iff_lt.mp (by omega)
  have notEarlier : yearOf day < year + 1 := yearStart_strictMono.lt_iff_lt.mp (by omega)
  omega

def dayOfYear (day : Int) : Nat := (day - yearStart (yearOf day) + 1).toNat

theorem yearStart_add_cycle (year : Int) : yearStart (year + 400) = yearStart year + 146097 := by
  unfold yearStart
  omega

theorem yearOf_add_cycle : yearOf (day + 146097) = yearOf day + 400 := by
  obtain ⟨starts, ends⟩ := yearOf_spec day
  have isStart := yearStart_add_cycle (yearOf day)
  have isEnd := yearStart_add_cycle (yearOf day + 1)
  apply yearOf_eq
  · omega
  · rw [show yearOf day + 400 + 1 = yearOf day + 1 + 400 by omega]
    omega

theorem dayOfYear_add_cycle : dayOfYear (day + 146097) = dayOfYear day := by
  have isStart := yearStart_add_cycle (yearOf day)
  rw [dayOfYear, dayOfYear, yearOf_add_cycle, isStart]
  congr 1
  omega

theorem dayOfYear_pos : 1 ≤ dayOfYear day := by
  have spec := yearOf_spec day
  unfold dayOfYear
  omega

/-- The next day is one more, or the first one of the next year. -/
theorem dayOfYear_succ_ne : dayOfYear (day + 1) ≠ dayOfYear day := by
  obtain ⟨starts, ends⟩ := yearOf_spec day
  have length := yearLength_cases (yearOf day)
  have isNext := yearStart_succ (yearOf day)
  obtain same | next : day + 1 < yearStart (yearOf day + 1) ∨ day + 1 = yearStart (yearOf day + 1) := by omega
  · have isYear : yearOf (day + 1) = yearOf day := yearOf_eq (by omega) same
    rw [dayOfYear, dayOfYear, isYear]
    omega
  · have isLater := yearStart_strictMono (show yearOf day + 1 < yearOf day + 1 + 1 by omega)
    have isYear : yearOf (day + 1) = yearOf day + 1 := yearOf_eq (by omega) (by omega)
    rw [dayOfYear, dayOfYear, isYear]
    omega

/-! ## Months -/

/-- The days of a year before a month, which is counted from 0. -/
def daysBefore (leap : Bool) (month : Int) : Int :=
  let february := if leap then 29 else 28
  if month ≤ 0 then 0 else if month ≤ 1 then 31 else if month ≤ 2 then 31 + february
  else if month ≤ 3 then 62 + february else if month ≤ 4 then 92 + february else if month ≤ 5 then 123 + february
  else if month ≤ 6 then 153 + february else if month ≤ 7 then 184 + february else if month ≤ 8 then 215 + february
  else if month ≤ 9 then 245 + february else if month ≤ 10 then 276 + february else if month ≤ 11 then 306 + february
  else 337 + february

/-- The first day of a month.  Months are counted from January of the year 0. -/
def monthStart (month : Int) : Int := yearStart (month / 12) + daysBefore (isLeapYear (month / 12)) (month % 12)

def monthLength (month : Int) : Int :=
  if month % 12 = 1 then (if isLeapYear (month / 12) then 29 else 28)
  else if month % 12 = 3 ∨ month % 12 = 5 ∨ month % 12 = 8 ∨ month % 12 = 10 then 30
  else 31

/-- The last month up to a given one that starts by a day of the year. -/
def monthInYear (leap : Bool) (day : Int) : Nat → Nat
  | 0 => 0
  | month + 1 => if daysBefore leap (month + 1) ≤ day then month + 1 else monthInYear leap day month

def monthOf (day : Int) : Int :=
  12 * yearOf day + monthInYear (isLeapYear (yearOf day)) (day - yearStart (yearOf day)) 11

def dayOfMonth (day : Int) : Int := day - monthStart (monthOf day) + 1

theorem monthStart_succ (month : Int) : monthStart (month + 1) = monthStart month + monthLength month := by
  have remainder : month % 12 = 0 ∨ month % 12 = 1 ∨ month % 12 = 2 ∨ month % 12 = 3 ∨ month % 12 = 4 ∨
      month % 12 = 5 ∨ month % 12 = 6 ∨ month % 12 = 7 ∨ month % 12 = 8 ∨ month % 12 = 9 ∨ month % 12 = 10 ∨
      month % 12 = 11 := by omega
  have isYear := yearStart_succ (month / 12)
  unfold yearLength at isYear
  unfold monthStart monthLength
  obtain inYear | lastMonth : month % 12 ≠ 11 ∨ month % 12 = 11 := by omega
  · rw [show (month + 1) / 12 = month / 12 by omega, show (month + 1) % 12 = month % 12 + 1 by omega]
    cases isLeapYear (month / 12) <;> obtain h | h | h | h | h | h | h | h | h | h | h | h := remainder <;>
      simp [h, daysBefore] at inYear ⊢ <;> omega
  · rw [show (month + 1) / 12 = month / 12 + 1 by omega, show (month + 1) % 12 = 0 by omega, isYear, lastMonth]
    cases isLeapYear (month / 12) <;> simp [daysBefore] <;> omega

theorem monthLength_bounds (month : Int) : 28 ≤ monthLength month ∧ monthLength month ≤ 31 := by
  unfold monthLength
  split
  · split <;> omega
  · split <;> omega

theorem monthStart_strictMono : StrictMono monthStart := by
  apply strictMono_int_of_lt_succ
  intro month
  have isNext := monthStart_succ month
  have bounds := monthLength_bounds month
  omega

theorem monthInYear_spec (leap : Bool) {day : Int} (starts : 0 ≤ day) (last : Nat) :
    monthInYear leap day last ≤ last ∧ daysBefore leap (monthInYear leap day last) ≤ day ∧
      (monthInYear leap day last < last → day < daysBefore leap (monthInYear leap day last + 1)) := by
  induction last with
  | zero => exact ⟨Nat.le_refl 0, starts, fun less => absurd less (Nat.lt_irrefl 0)⟩
  | succ last ih =>
    rw [monthInYear]
    split
    next starts => exact ⟨Nat.le_refl _, starts, fun less => absurd less (Nat.lt_irrefl _)⟩
    next later =>
      obtain ⟨bound, starts, ends⟩ := ih
      refine ⟨Nat.le_succ_of_le bound, starts, fun _ => ?_⟩
      obtain less | same := Nat.lt_or_eq_of_le bound
      · exact ends less
      · rw [same]
        exact Int.not_le.mp later

theorem monthStart_of_year (year : Int) {month : Int} (starts : 0 ≤ month) (ends : month ≤ 12) :
    monthStart (12 * year + month) = yearStart year + daysBefore (isLeapYear year) month := by
  unfold monthStart
  obtain inYear | rfl : month ≤ 11 ∨ month = 12 := by omega
  · rw [show (12 * year + month) / 12 = year by omega, show (12 * year + month) % 12 = month by omega]
  · rw [show (12 * year + 12) / 12 = year + 1 by omega, show (12 * year + 12) % 12 = 0 by omega, yearStart_succ]
    unfold yearLength
    cases isLeapYear year <;> simp [daysBefore]

theorem monthOf_spec : monthStart (monthOf day) ≤ day ∧ day < monthStart (monthOf day + 1) := by
  obtain ⟨starts, ends⟩ := yearOf_spec day
  have yearEnds := monthStart_of_year (yearOf day) (show (0 : Int) ≤ 12 by omega) (show (12 : Int) ≤ 12 by omega)
  have nextYear := monthStart_of_year (yearOf day + 1) (show (0 : Int) ≤ 0 by omega) (show (0 : Int) ≤ 12 by omega)
  rw [show 12 * (yearOf day + 1) + 0 = 12 * yearOf day + 12 by omega] at nextYear
  have noDays : daysBefore (isLeapYear (yearOf day + 1)) 0 = 0 := rfl
  obtain ⟨bound, notEarly, notLate⟩ := @monthInYear_spec (isLeapYear (yearOf day))
    (day - yearStart (yearOf day)) (by omega) 11
  have inYear : day - yearStart (yearOf day) < daysBefore (isLeapYear (yearOf day))
      (monthInYear (isLeapYear (yearOf day)) (day - yearStart (yearOf day)) 11 + 1) := by
    obtain less | same := Nat.lt_or_eq_of_le bound
    · exact notLate less
    · rw [same]
      show day - yearStart (yearOf day) < daysBefore (isLeapYear (yearOf day)) 12
      omega
  unfold monthOf
  rw [Int.add_assoc, monthStart_of_year _ (by omega) (by omega), monthStart_of_year _ (by omega) (by omega)]
  omega

theorem monthOf_eq {day month : Int} (starts : monthStart month ≤ day) (ends : day < monthStart (month + 1)) :
    monthOf day = month := by
  obtain ⟨starts', ends'⟩ := monthOf_spec day
  have notLater : month < monthOf day + 1 := monthStart_strictMono.lt_iff_lt.mp (by omega)
  have notEarlier : monthOf day < month + 1 := monthStart_strictMono.lt_iff_lt.mp (by omega)
  omega

theorem dayOfMonth_bounds : 1 ≤ dayOfMonth day ∧ dayOfMonth day ≤ monthLength (monthOf day) := by
  obtain ⟨starts, ends⟩ := monthOf_spec day
  have isNext := monthStart_succ (monthOf day)
  unfold dayOfMonth
  omega

theorem monthOf_eq_and_dayOfMonth_eq_iff {day month number : Int} (first : 1 ≤ number)
    (last : number ≤ monthLength month) :
    monthOf day = month ∧ dayOfMonth day = number ↔ day = monthStart month + number - 1 := by
  have isNext := monthStart_succ month
  constructor
  · rintro ⟨rfl, rfl⟩
    unfold dayOfMonth
    omega
  · rintro rfl
    have isMonth : monthOf (monthStart month + number - 1) = month := monthOf_eq (by omega) (by omega)
    refine ⟨isMonth, ?_⟩
    rw [dayOfMonth, isMonth]
    omega

theorem monthOf_monotone : Monotone monthOf := by
  intro first second notLater
  obtain ⟨starts, -⟩ := monthOf_spec first
  obtain ⟨-, ends⟩ := monthOf_spec second
  have before : monthOf first < monthOf second + 1 := monthStart_strictMono.lt_iff_lt.mp (by omega)
  omega

/-! ## Weeks -/

def weekday (day : Int) : Int := (day + 1) % 7

/-- The number of a week, which starts on Sunday. -/
def weekOf (day : Int) : Int := (day + 1) / 7

/-- The week that contains January 1 of a year. -/
def firstWeek (year : Int) : Int := weekOf (yearStart year)

def weekYear (week : Int) : Int := yearOf (7 * week + 5)

/-- The number of a week in its year. -/
def weekOfYear (week : Int) : Nat := (week - firstWeek (weekYear week) + 1).toNat

variable (week : Int)

theorem weekYear_spec : firstWeek (weekYear week) ≤ week ∧ week < firstWeek (weekYear week + 1) := by
  obtain ⟨starts, ends⟩ := yearOf_spec (7 * week + 5)
  unfold weekYear firstWeek weekOf
  omega

theorem weekOfYear_pos : 1 ≤ weekOfYear week := by
  have spec := weekYear_spec week
  unfold weekOfYear
  omega

theorem weekOfYear_add_cycle : weekOfYear (week + 20871) = weekOfYear week := by
  have isYear : weekYear (week + 20871) = weekYear week + 400 := by
    unfold weekYear
    rw [show 7 * (week + 20871) + 5 = 7 * week + 5 + 146097 by omega, yearOf_add_cycle]
  have isStart := yearStart_add_cycle (weekYear week)
  rw [weekOfYear, weekOfYear, isYear, firstWeek, firstWeek, isStart, weekOf, weekOf]
  congr 1
  omega

/-- A week is followed by the next one of its year, or, after 52 weeks at least, by the first one of the next year. -/
theorem weekOfYear_succ :
    weekOfYear (week + 1) = weekOfYear week + 1 ∨ weekOfYear (week + 1) = 1 ∧ 52 ≤ weekOfYear week := by
  obtain ⟨starts, ends⟩ := weekYear_spec week
  have isNext := yearStart_succ (weekYear week)
  have length := yearLength_cases (weekYear week)
  obtain ⟨satStarts, satEnds⟩ := yearOf_spec (7 * week + 5)
  have later := yearStart_strictMono (show weekYear week + 1 < weekYear week + 1 + 1 by omega)
  have nextLength := yearLength_cases (weekYear week + 1)
  have nextNext := yearStart_succ (weekYear week + 1)
  obtain same | next : 7 * (week + 1) + 5 < yearStart (weekYear week + 1) ∨
      yearStart (weekYear week + 1) ≤ 7 * (week + 1) + 5 := by omega
  · left
    have isYear : weekYear (week + 1) = weekYear week := yearOf_eq (by unfold weekYear; omega) same
    rw [weekOfYear, weekOfYear, isYear]
    omega
  · right
    have isYear : weekYear (week + 1) = weekYear week + 1 :=
      yearOf_eq next (by unfold weekYear at *; omega)
    rw [weekOfYear, weekOfYear, isYear]
    unfold firstWeek weekOf at *
    unfold weekYear at *
    omega

/-! ## Progressions -/

theorem dayOfYear_add_cycles (cycles : Nat) : dayOfYear (day + 146097 * cycles) = dayOfYear day := by
  induction cycles with
  | zero => simp
  | succ cycles ih =>
    rw [show day + 146097 * ((cycles + 1 : Nat) : Int) = day + 146097 * cycles + 146097 by omega,
      dayOfYear_add_cycle, ih]

theorem weekOfYear_add_cycles (cycles : Nat) : weekOfYear (week + 20871 * cycles) = weekOfYear week := by
  induction cycles with
  | zero => simp
  | succ cycles ih =>
    rw [show week + 20871 * ((cycles + 1 : Nat) : Int) = week + 20871 * cycles + 20871 by omega,
      weekOfYear_add_cycle, ih]

/-- Within a year from a week, the numbers go on, or they have started again from 1. -/
theorem weekOfYear_add (count : Nat) (bound : count ≤ 52) :
    weekOfYear (week + count) = weekOfYear week + count ∨
      weekOfYear (week + count) ≤ count ∧ 52 < weekOfYear week + count ∧
        weekOfYear (week + count) + 52 ≤ weekOfYear week + count := by
  induction count with
  | zero => simp
  | succ count ih =>
    have before := ih (by omega)
    have next := weekOfYear_succ (week + count)
    have positive := weekOfYear_pos week
    rw [show week + count + 1 = week + ((count + 1 : Nat) : Int) by omega] at next
    omega

theorem weekOfYear_add_ne {count : Nat} (positive : 0 < count) (bound : count < 52) :
    weekOfYear (week + count) ≠ weekOfYear week := by
  have after := weekOfYear_add week count (by omega)
  omega

/-- Days that are counted on from the day of the year modulo 365 do not follow each other at equal distances. -/
theorem not_progression_dayOfYear {interval : Nat} (several : 2 ≤ interval) (bound : interval ≤ 366) (start : Int) :
    ¬ ∀ count : Nat, dayOfYear (start + interval * (count + 1)) =
      (interval + dayOfYear (start + interval * count)) % 365 := by
  intro counts
  have grows : ∀ index : Nat, dayOfYear (start + interval * ((index + 1 : Nat) : Int)) =
      (interval + dayOfYear (start + interval * (index : Int))) % 365 := counts
  -- after a full cycle of the calendar the same day of the year is back
  have returns : dayOfYear (start + interval * ((146097 : Nat) : Int)) =
      dayOfYear (start + interval * ((0 : Nat) : Int)) := by
    have cycles := dayOfYear_add_cycles start interval
    rw [show start + (interval : Int) * ((146097 : Nat) : Int) = start + 146097 * interval by omega, cycles]
    simp
  have divides := @Recurrence.dvd_mul_of_returns (fun index => dayOfYear (start + interval * (index : Int)))
    interval 365 146097 grows returns
  have isYear : 365 ∣ interval := Nat.Coprime.dvd_of_dvd_mul_right (by decide) divides
  clear counts returns divides
  obtain rfl : interval = 365 := Nat.eq_of_dvd_of_lt_two_mul (Nat.ne_of_gt (Nat.lt_of_lt_of_le Nat.two_pos several))
    isYear (Nat.lt_of_le_of_lt bound (by decide))
  -- and with 365 days the day of the year stays the same, whereas a year may have 366
  have constant (index : Nat) : dayOfYear (start + 365 * ((index + 1 : Nat) : Int)) = dayOfYear (start + 365) := by
    induction index with
    | zero => simp
    | succ index ih =>
      have next := grows (index + 1)
      have again := grows index
      have positive := dayOfYear_pos (start + 365 * ((index + 1 + 1 : Nat) : Int))
      simp only [Nat.cast_ofNat] at next again
      omega
  have shifted := constant 88859
  rw [show start + 365 * ((88859 + 1 : Nat) : Int) = start + 365 + 1 + 146097 * ((222 : Nat) : Int) by omega,
    dayOfYear_add_cycles] at shifted
  exact dayOfYear_succ_ne _ shifted

/-- Weeks that are counted on modulo 52 do not follow each other at equal distances either, also when the same number
again is accepted. -/
theorem not_progression_weekOfYear {interval : Nat} (several : 2 ≤ interval) (bound : interval ≤ 52) (start : Int) :
    ¬ ∀ count : Nat, weekOfYear (start + interval * (count + 1)) =
        (interval + weekOfYear (start + interval * count)) % 52 ∨
      weekOfYear (start + interval * (count + 1)) = weekOfYear (start + interval * count) := by
  intro counts
  obtain short | rfl : interval < 52 ∨ interval = 52 := by omega
  · have grows (index : Nat) : weekOfYear (start + interval * ((index + 1 : Nat) : Int)) =
        (interval + weekOfYear (start + interval * (index : Int))) % 52 := by
      have different := weekOfYear_add_ne (start + interval * (index : Int)) (show 0 < interval by omega) short
      have isNext : start + interval * (index : Int) + interval = start + interval * ((index + 1 : Nat) : Int) := by
        rw [Int.natCast_succ, Int.mul_add, Int.mul_one, Int.add_assoc]
      rw [isNext] at different
      exact (counts index).resolve_right different
    have returns : weekOfYear (start + interval * ((20871 : Nat) : Int)) =
        weekOfYear (start + interval * ((0 : Nat) : Int)) := by
      have cycles := weekOfYear_add_cycles start interval
      rw [show start + (interval : Int) * ((20871 : Nat) : Int) = start + 20871 * interval by omega, cycles]
      simp
    have divides := @Recurrence.dvd_mul_of_returns (fun index => weekOfYear (start + interval * (index : Int)))
      interval 52 20871 grows returns
    have isYear : 52 ∣ interval := Nat.Coprime.dvd_of_dvd_mul_right (by decide) divides
    omega
  · have counts : ∀ count : Nat, weekOfYear (start + 52 * ((count + 1 : Nat) : Int)) =
          (52 + weekOfYear (start + 52 * (count : Int))) % 52 ∨
        weekOfYear (start + 52 * ((count + 1 : Nat) : Int)) = weekOfYear (start + 52 * (count : Int)) := counts
    -- a number that changes is below 52 afterwards and stays the same then
    have constant : ∃ first : Nat, ∀ index : Nat,
        weekOfYear (start + 52 * ((first + index : Nat) : Int)) = weekOfYear (start + 52 * (first : Int)) := by
      by_cases never : ∀ count : Nat, weekOfYear (start + 52 * ((count + 1 : Nat) : Int)) =
          weekOfYear (start + 52 * (count : Int))
      · refine ⟨0, fun index => ?_⟩
        induction index with
        | zero => rfl
        | succ index ih => exact (never (0 + index)).trans ih
      · obtain ⟨count, changes⟩ := not_forall.mp never
        have after := (counts count).resolve_right changes
        refine ⟨count + 1, fun index => ?_⟩
        induction index with
        | zero => rfl
        | succ index ih =>
          have next := counts (count + 1 + index)
          rw [Nat.add_assoc (count + 1) index 1] at next
          omega
    obtain ⟨first, constant⟩ := constant
    have shifted := constant 16456
    rw [show start + 52 * ((first + 16456 : Nat) : Int) = start + 52 * (first : Int) + ((1 : Nat) : Int) +
        20871 * ((41 : Nat) : Int) by omega, weekOfYear_add_cycles] at shifted
    exact weekOfYear_add_ne _ (by decide) (by decide) shifted

end Calendar
