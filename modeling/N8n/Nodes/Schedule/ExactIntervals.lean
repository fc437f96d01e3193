import N8n.Nodes.Schedule.GenericFunctions

/-! # Which schedule rules recur

The filter counts hours modulo 24, days modulo 365, weeks modulo 52 and months
modulo 12.  Only the rules whose interval fits into a day or a year recur at
their interval; all others skip or stop somewhere in each run.
-/

namespace N8n.Nodes.Schedule

open Recurrence (RecursEvery letThrough remembered)

/-! ## The filter -/

namespace ScheduleInterval

/-- The value of a period that the filter looks at. -/
def valueOf : ScheduleInterval → Int → Nat
  | hours _ _, hour => (hour % 24).toNat
  | weeks _ _ _ _, week => Calendar.weekOfYear week
  | months _ _ _ _, month => (month % 12).toNat
  | _, day => Calendar.dayOfYear day

def modulus : ScheduleInterval → Nat
  | hours _ _ => 24
  | weeks _ _ _ _ => 52
  | months _ _ _ _ => 12
  | _ => 365

def sameAgain : ScheduleInterval → Bool
  | weeks _ _ _ _ => true
  | _ => false

end ScheduleInterval

theorem checkValue_eq (intervalSize modulus : Nat) (sameAgain : Bool) (index value : Nat) (rules : RecurrenceRules) :
    (checkValue intervalSize modulus sameAgain index value rules).1 =
        Recurrence.isLetThrough (accepts intervalSize modulus sameAgain) (rules index) value ∧
      (checkValue intervalSize modulus sameAgain index value rules).2 index =
        if Recurrence.isLetThrough (accepts intervalSize modulus sameAgain) (rules index) value then some value
        else rules index := by
  unfold checkValue
  split
  next isLet => simp [isLet]
  next notLet => simp [notLet]

theorem accepts_iff {intervalSize modulus : Nat} {sameAgain : Bool} {lastExecution value : Nat} :
    accepts intervalSize modulus sameAgain lastExecution value = true ↔
      value = (intervalSize + lastExecution) % modulus ∨ sameAgain = true ∧ value = lastExecution := by
  simp [accepts]

section

variable {time : Timekeeping} {utcOffset : Int} {interval : ScheduleInterval}

/-- A rule with an interval over 1 checks the value of the period. -/
theorem recurrenceCheck_eq (documented : time.Documented utcOffset) (inRange : interval.InRange)
    (several : interval.size ≠ 1) (index : Nat) (rules : RecurrenceRules) (now : Int) :
    recurrenceCheck time (intervalToRecurrence interval index) rules now =
      checkValue interval.size interval.modulus interval.sameAgain index
        (interval.valueOf (interval.period (now + utcOffset))) rules := by
  cases interval with
  | cronExpression | seconds | minutes => exact inRange.elim
  | hours size minute =>
    have isHour : time.hour now = ((now + utcOffset) / 3600 % 24).toNat := by
      have := documented.hour now
      omega
    have notZero : size ≠ 0 := Nat.ne_of_gt inRange.1
    have notOne : size ≠ 1 := several
    simp only [intervalToRecurrence, notOne, ne_eq, not_false_eq_true, if_true, recurrenceCheck, notZero, if_false,
      isHour]
    rfl
  | days size hour minute =>
    have notZero : size ≠ 0 := Nat.ne_of_gt inRange.1
    have notOne : size ≠ 1 := several
    simp only [intervalToRecurrence, notOne, ne_eq, not_false_eq_true, if_true, recurrenceCheck, notZero, if_false,
      documented.dayOfYear now]
    rfl
  | weeks size weekdays hour minute =>
    have notZero : size ≠ 0 := Nat.ne_of_gt inRange.1
    have notOne : size ≠ 1 := several
    simp only [intervalToRecurrence, notOne, ne_eq, not_false_eq_true, if_true, recurrenceCheck, notZero, if_false,
      documented.week now]
    rfl
  | months size day hour minute =>
    have isMonth : time.month now = (Calendar.monthOf (localDay (now + utcOffset)) % 12).toNat := by
      have := documented.month now
      omega
    have notZero : size ≠ 0 := Nat.ne_of_gt inRange.1
    have notOne : size ≠ 1 := several
    simp only [intervalToRecurrence, notOne, ne_eq, not_false_eq_true, if_true, recurrenceCheck, notZero, if_false,
      isMonth]
    rfl

theorem shouldTrigger_eq_letThrough (documented : time.Documented utcOffset) (inRange : interval.InRange)
    (several : interval.size ≠ 1) (index : Nat) (tick : Nat → Int) :
    shouldTrigger time (intervalToRecurrence interval index) tick =
      letThrough (accepts interval.size interval.modulus interval.sameAgain)
        fun count => interval.valueOf (interval.period (tick count + utcOffset)) := by
  have stored (count : Nat) : rulesBefore time (intervalToRecurrence interval index) tick count index =
      remembered (accepts interval.size interval.modulus interval.sameAgain)
        (fun count => interval.valueOf (interval.period (tick count + utcOffset))) count := by
    induction count with
    | zero => rfl
    | succ count ih =>
      rw [rulesBefore, recurrenceCheck_eq documented inRange several, (checkValue_eq ..).2, remembered,
        ih]
  funext count
  rw [shouldTrigger, recurrenceCheck_eq documented inRange several, (checkValue_eq ..).1, letThrough, stored]

theorem shouldTrigger_of_size_one (inRange : interval.InRange) (single : interval.size = 1) (index : Nat)
    (tick : Nat → Int) (count : Nat) :
    shouldTrigger time (intervalToRecurrence interval index) tick count = true := by
  have notActivated : intervalToRecurrence interval index = .notActivated := by
    cases interval with
    | cronExpression | seconds | minutes => exact inRange.elim
    | hours | days | weeks | months => exact if_neg (not_not_intro single)
  rw [shouldTrigger, notActivated]
  rfl

end

/-! ## The rules of a node -/

/-- The checks of all rules of a node, one after the other, each with the index of its rule. -/
def executeTriggers (time : Timekeeping) : RecurrenceRules → List (ScheduleInterval × Nat × Int) → List (Nat × Bool)
  | _, [] => []
  | rules, (interval, index, now) :: rest =>
    let (shouldTrigger, next) := recurrenceCheck time (intervalToRecurrence interval index) rules now
    (index, shouldTrigger) :: executeTriggers time next rest

theorem intervalToRecurrence_cases (interval : ScheduleInterval) (index : Nat) :
    intervalToRecurrence interval index = .notActivated ∨
      ∃ intervalSize typeInterval,
        intervalToRecurrence interval index = .activated index intervalSize typeInterval := by
  unfold intervalToRecurrence
  split <;> first | exact Or.inl rfl | (split <;> simp)

theorem checkValue_frame (intervalSize modulus : Nat) (sameAgain : Bool) {index other : Nat} (value : Nat)
    (rules : RecurrenceRules) (different : other ≠ index) :
    (checkValue intervalSize modulus sameAgain index value rules).2 other = rules other := by
  unfold checkValue
  split
  next => exact Function.update_of_ne different _ _
  next => rfl

theorem recurrenceCheck_frame (time : Timekeeping) (interval : ScheduleInterval) {index other : Nat}
    (rules : RecurrenceRules) (now : Int) (different : other ≠ index) :
    (recurrenceCheck time (intervalToRecurrence interval index) rules now).2 other = rules other := by
  obtain notActivated | ⟨size, type, activated⟩ := intervalToRecurrence_cases interval index
  · rw [notActivated]
    rfl
  · simp only [activated, recurrenceCheck]
    split
    next => rfl
    next => cases type <;> exact checkValue_frame _ _ _ _ _ different

/-- And it looks at no other value. -/
theorem recurrenceCheck_congr (time : Timekeeping) (interval : ScheduleInterval) {index : Nat}
    {rules rules' : RecurrenceRules} (now : Int) (same : rules index = rules' index) :
    (recurrenceCheck time (intervalToRecurrence interval index) rules now).1 =
        (recurrenceCheck time (intervalToRecurrence interval index) rules' now).1 ∧
      (recurrenceCheck time (intervalToRecurrence interval index) rules now).2 index =
        (recurrenceCheck time (intervalToRecurrence interval index) rules' now).2 index := by
  have sameCheck (size modulus : Nat) (sameAgain : Bool) (value : Nat) :
      (checkValue size modulus sameAgain index value rules).1 =
          (checkValue size modulus sameAgain index value rules').1 ∧
        (checkValue size modulus sameAgain index value rules).2 index =
          (checkValue size modulus sameAgain index value rules').2 index := by
    simp only [checkValue_eq, same, and_self]
  obtain notActivated | ⟨size, type, activated⟩ := intervalToRecurrence_cases interval index
  · rw [notActivated]
    exact ⟨rfl, same⟩
  · simp only [activated, recurrenceCheck]
    split
    next => exact ⟨rfl, same⟩
    next => cases type <;> exact sameCheck ..

/-- The rules of a node do not disturb each other: what the checks of one decide is the same without the others. -/
theorem filter_executeTriggers (time : Timekeeping) (index : Nat) (checks : List (ScheduleInterval × Nat × Int))
    {rules rules' : RecurrenceRules} (same : rules index = rules' index) :
    (executeTriggers time rules checks).filter (fun check => check.1 = index) =
      executeTriggers time rules' (checks.filter fun check => check.2.1 = index) := by
  induction checks generalizing rules rules' with
  | nil => rfl
  | cons check rest ih =>
    obtain ⟨interval, other, now⟩ := check
    rw [executeTriggers]
    by_cases own : other = index
    · subst own
      obtain ⟨sameDecision, sameNext⟩ := recurrenceCheck_congr time interval now same
      simp only [List.filter_cons, decide_true, if_true, executeTriggers]
      rw [sameDecision, ih sameNext]
    · have kept := recurrenceCheck_frame time interval rules now (Ne.symm own)
      simp only [List.filter_cons, own, decide_false, Bool.false_eq_true, if_false]
      exact ih (kept.trans same)

/-! ## The ticks -/

@[simp] theorem CronField.matches_single (listed : Nat) (first value : Int) :
    (CronField.values [listed]).Matches first value ↔ (listed : Int) = value := by
  simp [CronField.Matches]

@[simp] theorem localDay_add_days (moment days : Int) : localDay (moment + 86400 * days) = localDay moment + days := by
  unfold localDay
  omega

theorem CronFields.Matches.add_days {fields : CronFields} {moment : Int} (isMatch : fields.Matches moment) (days : Int)
    (dayOfMonth : fields.dayOfMonth.Matches 1 (Calendar.dayOfMonth (localDay moment + days)))
    (month : fields.month.Matches 1 (Calendar.monthOf (localDay moment + days) % 12 + 1))
    (dayOfWeek : fields.dayOfWeek.MatchesWeekday (Calendar.weekday (localDay moment + days))) :
    fields.Matches (moment + 86400 * days) := by
  have sameSecond : (moment + 86400 * days) % 60 = moment % 60 := by omega
  have sameMinute : (moment + 86400 * days) / 60 % 60 = moment / 60 % 60 := by omega
  have sameHour : (moment + 86400 * days) / 3600 % 24 = moment / 3600 % 24 := by omega
  constructor
  · rw [sameSecond]
    exact isMatch.second
  · rw [sameMinute]
    exact isMatch.minute
  · rw [sameHour]
    exact isMatch.hour
  · rwa [localDay_add_days]
  · rwa [localDay_add_days]
  · rwa [localDay_add_days]

/-- The local moments of a run: all that match the expression, from the first one on. -/
structure IsLocalRun (fields : CronFields) (moment : Nat → Int) : Prop where
  strictMono : StrictMono moment
  isMatch : ∀ count, fields.Matches (moment count)
  exists_eq : ∀ later, fields.Matches later → moment 0 ≤ later → ∃ count, moment count = later

theorem IsRun.isLocalRun {time : Timekeeping} {utcOffset : Int} (documented : time.Documented utcOffset)
    {fields : CronFields} (oneDay : fields.dayOfMonth = .any ∨ fields.dayOfWeek = .any) {start : Int}
    {tick : Nat → Int} (run : IsRun time (.fields fields) start tick) :
    IsLocalRun fields fun count => tick count + utcOffset := by
  have isTick (count : Nat) : start ≤ tick count ∧ fields.Valid ∧ fields.Matches (tick count + utcOffset) := by
    obtain ⟨starts, ticks⟩ := (run.mem_iff (tick count)).mp ⟨count, rfl⟩
    exact ⟨starts, (documented.ticks fields (tick count) oneDay).mp ticks⟩
  refine ⟨fun _ _ less => Int.add_lt_add_right (run.strictMono less) utcOffset, fun count => (isTick count).2.2,
    fun later isMatch after => ?_⟩
  obtain ⟨starts, isValid, -⟩ := isTick 0
  have ticks : time.ticks (.fields fields) (later - utcOffset) := by
    apply (documented.ticks fields (later - utcOffset) oneDay).mpr
    rw [Int.sub_add_cancel]
    exact ⟨isValid, isMatch⟩
  obtain ⟨count, isNow⟩ := (run.mem_iff (later - utcOffset)).mpr ⟨by omega, ticks⟩
  exact ⟨count, by omega⟩

namespace ScheduleInterval

/-- The periods in which there is a tick. -/
def Scheduled (random : RandomInts) : ScheduleInterval → Int → Prop
  | hours interval _, hour => (interval : Int) ∣ hour % 24
  | months interval triggerAtDayOfMonth _ _, month => (interval : Int) ∣ month % 12 ∧
      ((triggerAtDayOfMonth.getD random.dayOfMonth : Nat) : Int) ≤ Calendar.monthLength month
  | _, _ => True

theorem localDay_monotone : Monotone localDay := by
  intro first second notLater
  unfold localDay
  omega

theorem period_monotone (interval : ScheduleInterval) : Monotone interval.period := by
  intro first second notLater
  have days := localDay_monotone notLater
  cases interval with
  | hours size minute =>
    show first / 3600 ≤ second / 3600
    omega
  | weeks size weekdays hour minute =>
    show Calendar.weekOf (localDay first) ≤ Calendar.weekOf (localDay second)
    unfold Calendar.weekOf
    omega
  | months size day hour minute => exact Calendar.monthOf_monotone days
  | cronExpression | seconds | minutes | days => exact days

variable {random : RandomInts} {interval : ScheduleInterval} {fields : CronFields} {moment : Nat → Int}

theorem scheduled_of_matches (inRange : interval.InRange)
    (isExpression : toCronExpression random interval = .fields fields) {now : Int} (isMatch : fields.Matches now) :
    interval.Scheduled random (interval.period now) := by
  cases interval with
  | cronExpression | seconds | minutes => exact inRange.elim
  | hours size minute =>
    injection isExpression with isFields
    subst isFields
    have isHour : (size : Int) ∣ now / 3600 % 24 - 0 := isMatch.hour
    show (size : Int) ∣ now / 3600 % 24
    rwa [Int.sub_zero] at isHour
  | days | weeks => trivial
  | months size day hour minute =>
    injection isExpression with isFields
    subst isFields
    have isMonth : (size : Int) ∣ Calendar.monthOf (localDay now) % 12 + 1 - 1 := isMatch.month
    have isDay := (CronField.matches_single ..).mp isMatch.dayOfMonth
    have bounds := Calendar.dayOfMonth_bounds (localDay now)
    rw [Int.add_sub_cancel] at isMonth
    rw [← isDay] at bounds
    exact ⟨isMonth, bounds.2⟩

/-- From a matching moment on, there is one in each later scheduled period. -/
theorem exists_matches (inRange : interval.InRange)
    (isExpression : toCronExpression random interval = .fields fields) {now period : Int}
    (isMatch : fields.Matches now) (scheduled : interval.Scheduled random period) :
    ∃ moment, fields.Matches moment ∧ interval.period moment = period := by
  cases interval with
  | cronExpression | seconds | minutes => exact inRange.elim
  | hours size minute =>
    injection isExpression with isFields
    subst isFields
    have sameSecond : (now + 3600 * (period - now / 3600)) % 60 = now % 60 := by omega
    have sameMinute : (now + 3600 * (period - now / 3600)) / 60 % 60 = now / 60 % 60 := by omega
    have isHour : (now + 3600 * (period - now / 3600)) / 3600 = period := by omega
    refine ⟨now + 3600 * (period - now / 3600), ⟨?_, ?_, ?_, trivial, trivial, trivial⟩, isHour⟩
    · rw [sameSecond]
      exact isMatch.second
    · rw [sameMinute]
      exact isMatch.minute
    · show (size : Int) ∣ (now + 3600 * (period - now / 3600)) / 3600 % 24 - 0
      rw [isHour, Int.sub_zero]
      exact scheduled
  | days size hour minute =>
    injection isExpression with isFields
    subst isFields
    refine ⟨now + 86400 * (period - localDay now), isMatch.add_days _ trivial trivial trivial, ?_⟩
    show localDay (now + 86400 * (period - localDay now)) = period
    rw [localDay_add_days]
    omega
  | weeks size weekdays hour minute =>
    injection isExpression with isFields
    subst isFields
    have sameWeekday : Calendar.weekday (localDay now + 7 * (period - Calendar.weekOf (localDay now))) =
        Calendar.weekday (localDay now) := by
      unfold Calendar.weekday
      omega
    refine ⟨now + 86400 * (7 * (period - Calendar.weekOf (localDay now))),
      isMatch.add_days _ trivial trivial ?_, ?_⟩
    · rw [sameWeekday]
      exact isMatch.dayOfWeek
    · show Calendar.weekOf (localDay (now + 86400 * (7 * (period - Calendar.weekOf (localDay now))))) = period
      rw [localDay_add_days]
      unfold Calendar.weekOf
      omega
  | months size day hour minute =>
    injection isExpression with isFields
    subst isFields
    have isDay := (CronField.matches_single ..).mp isMatch.dayOfMonth
    have bounds := Calendar.dayOfMonth_bounds (localDay now)
    rw [← isDay] at bounds
    obtain ⟨isMonth, hasDay⟩ := scheduled
    obtain ⟨inMonth, onDay⟩ := (Calendar.monthOf_eq_and_dayOfMonth_eq_iff bounds.1 hasDay).mpr rfl
    have isTarget : localDay now + (Calendar.monthStart period + (day.getD random.dayOfMonth : Nat) - 1 -
        localDay now) = Calendar.monthStart period + (day.getD random.dayOfMonth : Nat) - 1 := by omega
    refine ⟨now + 86400 * (Calendar.monthStart period + (day.getD random.dayOfMonth : Nat) - 1 - localDay now),
      isMatch.add_days _ ?_ ?_ trivial, ?_⟩
    · apply (CronField.matches_single ..).mpr
      rw [isTarget, onDay]
    · show (size : Int) ∣ Calendar.monthOf (localDay now + _) % 12 + 1 - 1
      rw [isTarget, inMonth, Int.add_sub_cancel]
      exact isMonth
    · show Calendar.monthOf (localDay (now + _)) = period
      rw [localDay_add_days, isTarget, inMonth]

/-! ## Exact intervals -/

/-- In every month that an exact rule is for, the day exists if it exists in one. -/
theorem le_monthLength_of_isExact {size day : Nat} {triggerAt hour minute : Option Nat}
    (exact : (months size triggerAt hour minute).IsExact random) {month : Int} (isMonth : (size : Int) ∣ month % 12)
    (isDay : triggerAt.getD random.dayOfMonth = day) (exists_day : day ≤ 31) :
    (day : Int) ≤ Calendar.monthLength month := by
  obtain ⟨-, early | ⟨several, notLast⟩ | half | whole⟩ := exact
  · have bounds := Calendar.monthLength_bounds month
    omega
  · have notFebruary : month % 12 ≠ 1 := by
      intro february
      rw [february] at isMonth
      exact several (Nat.dvd_one.mp (Int.natCast_dvd_natCast.mp isMonth))
    unfold Calendar.monthLength
    split
    next february => exact absurd february notFebruary
    next => split <;> omega
  · subst half
    have januaryOrJuly : month % 12 = 0 ∨ month % 12 = 6 := by omega
    unfold Calendar.monthLength
    split
    next february => omega
    next => split <;> omega
  · subst whole
    have january : month % 12 = 0 := by omega
    unfold Calendar.monthLength
    split
    next february => omega
    next => split <;> omega

theorem dvd_emod_iff {size modulus : Int} (divides : size ∣ modulus) (value : Int) :
    size ∣ value % modulus ↔ size ∣ value := by
  rw [Int.dvd_iff_emod_eq_zero, Int.dvd_iff_emod_eq_zero, Int.emod_emod_of_dvd value divides]

theorem add_le_of_dvd {size period later : Int} (isMultiple : size ∣ period) (isMultiple' : size ∣ later)
    (less : period < later) : period + size ≤ later := by
  have positive : 0 < later - period := Int.sub_pos_of_lt less
  have atMost := Int.le_of_dvd positive (Int.dvd_sub isMultiple' isMultiple)
  omega

theorem scheduled_add_size (inRange : interval.InRange) (exact : interval.IsExact random) {period : Int}
    (scheduled : interval.Scheduled random period) : interval.Scheduled random (period + interval.size) := by
  cases interval with
  | cronExpression | seconds | minutes => exact inRange.elim
  | hours size minute =>
    have divides : (size : Int) ∣ 24 := Int.natCast_dvd_natCast.mpr exact
    have isMultiple : (size : Int) ∣ period := (dvd_emod_iff divides period).mp scheduled
    exact (dvd_emod_iff divides _).mpr (Int.dvd_add isMultiple (Int.dvd_refl _))
  | days | weeks => trivial
  | months size day hour minute =>
    have divides : (size : Int) ∣ 12 := Int.natCast_dvd_natCast.mpr exact.1
    have isMultiple : (size : Int) ∣ period := (dvd_emod_iff divides period).mp scheduled.1
    have isNext : (size : Int) ∣ (period + size) % 12 :=
      (dvd_emod_iff divides _).mpr (Int.dvd_add isMultiple (Int.dvd_refl _))
    have bounds := Calendar.monthLength_bounds period
    have hasDay := scheduled.2
    exact ⟨isNext, le_monthLength_of_isExact exact isNext rfl (by omega)⟩

theorem add_size_le (inRange : interval.InRange) (exact : interval.IsExact random) {period later : Int}
    (scheduled : interval.Scheduled random period) (scheduled' : interval.Scheduled random later)
    (less : period < later) : period + interval.size ≤ later := by
  cases interval with
  | cronExpression | seconds | minutes => exact inRange.elim
  | hours size minute =>
    have divides : (size : Int) ∣ 24 := Int.natCast_dvd_natCast.mpr exact
    exact add_le_of_dvd ((dvd_emod_iff divides period).mp scheduled) ((dvd_emod_iff divides later).mp scheduled') less
  | days size hour minute =>
    obtain rfl : size = 1 := exact
    exact less
  | weeks size weekdays hour minute =>
    obtain rfl : size = 1 := exact
    exact less
  | months size day hour minute =>
    have divides : (size : Int) ∣ 12 := Int.natCast_dvd_natCast.mpr exact.1
    exact add_le_of_dvd ((dvd_emod_iff divides period).mp scheduled.1) ((dvd_emod_iff divides later).mp scheduled'.1)
      less

/-- The filter accepts the next period of a rule in hours or months. -/
theorem accepts_add_size (inRange : interval.InRange) (exact : interval.IsExact random) (several : interval.size ≠ 1)
    (period : Int) : accepts interval.size interval.modulus interval.sameAgain (interval.valueOf period)
      (interval.valueOf (period + interval.size)) = true := by
  apply accepts_iff.mpr
  left
  cases interval with
  | cronExpression | seconds | minutes => exact inRange.elim
  | hours size minute =>
    show ((period + size) % 24).toNat = (size + (period % 24).toNat) % 24
    omega
  | days | weeks => exact absurd exact several
  | months size day hour minute =>
    show ((period + size) % 12).toNat = (size + (period % 12).toNat) % 12
    omega

theorem eq_of_period_eq (inRange : interval.InRange) (exact : interval.IsExact random) (several : interval.size ≠ 1)
    (isExpression : toCronExpression random interval = .fields fields) {now later : Int}
    (isMatch : fields.Matches now) (isMatch' : fields.Matches later)
    (same : interval.period now = interval.period later) : now = later := by
  cases interval with
  | cronExpression | seconds | minutes => exact inRange.elim
  | hours size minute =>
    injection isExpression with isFields
    subst isFields
    have isHour : now / 3600 = later / 3600 := same
    have isSecond := (CronField.matches_single ..).mp isMatch.second
    have isSecond' := (CronField.matches_single ..).mp isMatch'.second
    have isMinute := (CronField.matches_single ..).mp isMatch.minute
    have isMinute' := (CronField.matches_single ..).mp isMatch'.minute
    omega
  | days | weeks => exact absurd exact several
  | months size day hour minute =>
    injection isExpression with isFields
    subst isFields
    have isDay := (CronField.matches_single ..).mp isMatch.dayOfMonth
    have isDay' := (CronField.matches_single ..).mp isMatch'.dayOfMonth
    have isMonth : Calendar.monthOf (localDay now) = Calendar.monthOf (localDay later) := same
    have sameDay : localDay now = localDay later := by
      unfold Calendar.dayOfMonth at isDay isDay'
      rw [isMonth] at isDay
      omega
    have isSecond := (CronField.matches_single ..).mp isMatch.second
    have isSecond' := (CronField.matches_single ..).mp isMatch'.second
    have isMinute := (CronField.matches_single ..).mp isMatch.minute
    have isMinute' := (CronField.matches_single ..).mp isMatch'.minute
    have isHour := (CronField.matches_single ..).mp isMatch.hour
    have isHour' := (CronField.matches_single ..).mp isMatch'.hour
    unfold localDay at sameDay
    omega

end ScheduleInterval

namespace IsLocalRun

variable {random : RandomInts} {interval : ScheduleInterval} {fields : CronFields} {moment : Nat → Int}

theorem monotone (run : IsLocalRun fields moment) : Monotone fun count => interval.period (moment count) :=
  interval.period_monotone.comp run.strictMono.monotone

theorem exists_tick (run : IsLocalRun fields moment) (inRange : interval.InRange)
    (isExpression : toCronExpression random interval = .fields fields) {count : Nat} {period : Int}
    (later : interval.period (moment count) < period) (scheduled : interval.Scheduled random period) :
    ∃ next, interval.period (moment next) = period := by
  obtain ⟨target, isMatch, isPeriod⟩ :=
    ScheduleInterval.exists_matches inRange isExpression (run.isMatch count) scheduled
  have after : moment 0 ≤ target := by
    by_contra before
    have notLater := interval.period_monotone (Int.le_of_lt (Int.not_le.mp before))
    have first : interval.period (moment 0) ≤ interval.period (moment count) := run.monotone (Nat.zero_le count)
    omega
  obtain ⟨next, isNext⟩ := run.exists_eq target isMatch after
  exact ⟨next, by rw [isNext, isPeriod]⟩

/-- The periods of the ticks of a rule in hours or months are all different. -/
theorem strictMono_period (run : IsLocalRun fields moment) (inRange : interval.InRange)
    (exact : interval.IsExact random) (several : interval.size ≠ 1)
    (isExpression : toCronExpression random interval = .fields fields) :
    StrictMono fun count => interval.period (moment count) := by
  apply run.monotone.strictMono_of_injective
  intro first second same
  exact run.strictMono.injective (ScheduleInterval.eq_of_period_eq inRange exact several isExpression
    (run.isMatch first) (run.isMatch second) same)

end IsLocalRun

section

variable {time : Timekeeping} {utcOffset : Int} {random : RandomInts} {interval : ScheduleInterval} {start : Int}
  {tick : Nat → Int}

theorem ScheduleInterval.exists_fields (random : RandomInts) (inRange : interval.InRange) :
    ∃ fields, toCronExpression random interval = .fields fields ∧
      (fields.dayOfMonth = .any ∨ fields.dayOfWeek = .any) ∧ 0 < interval.size := by
  cases interval with
  | cronExpression | seconds | minutes => exact inRange.elim
  | hours size minute => exact ⟨_, rfl, Or.inl rfl, inRange.1⟩
  | days size hour minute => exact ⟨_, rfl, Or.inl rfl, inRange.1⟩
  | weeks size weekdays hour minute => exact ⟨_, rfl, Or.inl rfl, inRange.1⟩
  | months size day hour minute => exact ⟨_, rfl, Or.inr rfl, inRange.1⟩

theorem recursEvery_of_isExact (documented : time.Documented utcOffset) (inRange : interval.InRange)
    (exact : interval.IsExact random) (index : Nat) (run : IsRun time (toCronExpression random interval) start tick) :
    RecursEvery interval.size (fun count => interval.period (tick count + utcOffset))
      (shouldTrigger time (intervalToRecurrence interval index) tick) := by
  obtain ⟨fields, isExpression, oneDay, sizePositive⟩ := interval.exists_fields random inRange
  rw [isExpression] at run
  have localRun := run.isLocalRun documented oneDay
  have positive : (0 : Int) < interval.size := Int.natCast_pos.mpr sizePositive
  have scheduled (count : Nat) : interval.Scheduled random (interval.period (tick count + utcOffset)) :=
    ScheduleInterval.scheduled_of_matches inRange isExpression (localRun.isMatch count)
  have reaches (count : Nat) : ∃ next, interval.period (tick next + utcOffset) =
      interval.period (tick count + utcOffset) + interval.size :=
    localRun.exists_tick inRange isExpression (Int.lt_add_of_pos_right _ positive)
      (ScheduleInterval.scheduled_add_size inRange exact (scheduled count))
  have apart (first second : Nat) := ScheduleInterval.add_size_le inRange exact (scheduled first) (scheduled second)
  have all (count : Nat) : shouldTrigger time (intervalToRecurrence interval index) tick count = true := by
    by_cases single : interval.size = 1
    · exact shouldTrigger_of_size_one inRange single index tick count
    · have strictMono := localRun.strictMono_period inRange exact single isExpression
      rw [shouldTrigger_eq_letThrough documented inRange single]
      apply Recurrence.letThrough_of_accepts
      intro count
      rw [Recurrence.period_succ strictMono reaches positive apart count]
      exact ScheduleInterval.accepts_add_size inRange exact single _
  exact Recurrence.recursEvery_of_all localRun.monotone positive all reaches apart

/-! ## Intervals that do not recur -/

theorem day_le_of_progression {size day : Nat} {month : Int} (divides : size ∣ 12) (isMonth : (size : Int) ∣ month % 12)
    (hasDay : ∀ count : Nat, (day : Int) ≤ Calendar.monthLength (month + size * count)) :
    day ≤ 28 ∨ size ≠ 1 ∧ day ≤ 30 ∨ size = 6 ∨ size = 12 := by
  have cases : ∀ size ≤ 12, size ∣ 12 → size = 1 ∨ size = 2 ∨ size = 3 ∨ size = 4 ∨ size = 6 ∨ size = 12 := by decide
  have short (count : Nat) (isShort : (month + size * count) % 12 = 3 ∨ (month + size * count) % 12 = 8) :
      day ≤ 30 := by
    have last := hasDay count
    rw [Calendar.monthLength, if_neg (by omega), if_pos (by omega)] at last
    omega
  obtain rfl | rfl | rfl | rfl | rfl | rfl := cases size (Nat.le_of_dvd (by decide) divides) divides
  · -- the February of a year that is not a leap year
    left
    have february := hasDay ((13 - month) % 48).toNat
    have isFebruary : month + (1 : Nat) * (((13 - month) % 48).toNat : Int) = 48 * ((month + 34) / 48) + 13 := by omega
    have common : Calendar.isLeapYear ((48 * ((month + 34) / 48) + 13) / 12) = false := by
      unfold Calendar.isLeapYear
      rw [show (48 * ((month + 34) / 48) + 13) / 12 % 4 = 1 by omega]
      rfl
    rw [isFebruary, Calendar.monthLength, if_pos (by omega), common] at february
    simp only [Bool.false_eq_true, if_false] at february
    omega
  · -- September, which every second and every fourth month reach
    exact Or.inr (Or.inl ⟨by decide, short ((8 - month) % 12 / 2).toNat (by omega)⟩)
  · exact Or.inr (Or.inl ⟨by decide, short ((3 - month) % 12 / 3).toNat (by omega)⟩)
  · exact Or.inr (Or.inl ⟨by decide, short ((8 - month) % 12 / 4).toNat (by omega)⟩)
  · exact Or.inr (Or.inr (Or.inl rfl))
  · exact Or.inr (Or.inr (Or.inr rfl))

theorem isExact_of_recursEvery (documented : time.Documented utcOffset) (inRange : interval.InRange)
    (index : Nat) (run : IsRun time (toCronExpression random interval) start tick)
    (recurs : RecursEvery interval.size (fun count => interval.period (tick count + utcOffset))
      (shouldTrigger time (intervalToRecurrence interval index) tick)) :
    interval.IsExact random := by
  obtain ⟨fields, isExpression, oneDay, sizePositive⟩ := interval.exists_fields random inRange
  rw [isExpression] at run
  have localRun := run.isLocalRun documented oneDay
  have scheduled (count : Nat) : interval.Scheduled random
      (interval.period (tick 0 + utcOffset) + interval.size * count) := by
    obtain ⟨next, -, isPeriod⟩ := recurs.reaches count
    rw [← isPeriod]
    exact ScheduleInterval.scheduled_of_matches inRange isExpression (localRun.isMatch next)
  have accepted (several : interval.size ≠ 1) (count : Nat) :
      accepts interval.size interval.modulus interval.sameAgain
        (interval.valueOf (interval.period (tick 0 + utcOffset) + interval.size * count))
        (interval.valueOf (interval.period (tick 0 + utcOffset) + interval.size * (count + 1))) = true := by
    rw [shouldTrigger_eq_letThrough documented inRange several] at recurs
    exact @RecursEvery.accepts_next _ _ _ _ interval.valueOf recurs count
  cases interval with
  | cronExpression | seconds | minutes => exact inRange.elim
  | hours size minute =>
    have bound : (size : Int) ≤ 24 := by
      have := inRange.2
      omega
    exact Int.natCast_dvd_natCast.mp (Recurrence.dvd_of_residues (Int.natCast_pos.mpr sizePositive) bound scheduled)
  | days size hour minute =>
    by_contra several
    apply Calendar.not_progression_dayOfYear (Nat.lt_of_le_of_ne inRange.1 (Ne.symm several)) inRange.2
      (localDay (tick 0 + utcOffset))
    intro count
    exact (accepts_iff.mp (accepted several count)).resolve_right fun isSame => Bool.false_ne_true isSame.1
  | weeks size weekdays hour minute =>
    by_contra several
    apply Calendar.not_progression_weekOfYear (Nat.lt_of_le_of_ne inRange.1 (Ne.symm several)) inRange.2
      (Calendar.weekOf (localDay (tick 0 + utcOffset)))
    intro count
    exact (accepts_iff.mp (accepted several count)).imp_right And.right
  | months size day hour minute =>
    have bound : (size : Int) ≤ 12 := by
      have := inRange.2
      omega
    have divides : size ∣ 12 := Int.natCast_dvd_natCast.mp (Recurrence.dvd_of_residues
      (Int.natCast_pos.mpr sizePositive) bound fun count => (scheduled count).1)
    have isMonth : (size : Int) ∣ Calendar.monthOf (localDay (tick 0 + utcOffset)) % 12 := by
      have first := (scheduled 0).1
      rwa [Int.natCast_zero, Int.mul_zero, Int.add_zero] at first
    exact ⟨divides, day_le_of_progression divides isMonth fun count => (scheduled count).2⟩

/-- A rule recurs at its interval in a run exactly when the interval is exact. -/
theorem recursEvery_iff_isExact (documented : time.Documented utcOffset) (inRange : interval.InRange)
    (index : Nat) (run : IsRun time (toCronExpression random interval) start tick) :
    RecursEvery interval.size (fun count => interval.period (tick count + utcOffset))
      (shouldTrigger time (intervalToRecurrence interval index) tick) ↔ interval.IsExact random :=
  ⟨isExact_of_recursEvery documented inRange index run, fun exact =>
    recursEvery_of_isExact documented inRange exact index run⟩

end

def Timekeeping.utc : Timekeeping where
  hour := fun now => (now / 3600 % 24).toNat
  dayOfYear := fun now => Calendar.dayOfYear (localDay now)
  week := fun now => Calendar.weekOfYear (Calendar.weekOf (localDay now))
  month := fun now => (Calendar.monthOf (localDay now) % 12).toNat
  ticks := fun expression now =>
    match expression with
    | .custom _ => False
    | .fields fields => fields.Valid ∧ fields.Matches now

theorem filter_executeTriggers_first :
    (executeTriggers .utc (fun _ => none) [(.hours 6 none, 0, 0), (.hours 2 none, 1, 0)]).filter (fun check =>
      check.1 = 0) =
      executeTriggers .utc (fun _ => none) [(.hours 6 none, 0, 0)] :=
  filter_executeTriggers .utc 0 _ rfl

theorem Timekeeping.utc_documented : Timekeeping.utc.Documented 0 := by
  constructor
  · intro now
    show ((now / 3600 % 24).toNat : Int) = (now + 0) / 3600 % 24
    omega
  · intro now
    rw [Int.add_zero]
    rfl
  · intro now
    rw [Int.add_zero]
    rfl
  · intro now
    show ((Calendar.monthOf (localDay now) % 12).toNat : Int) = Calendar.monthOf (localDay (now + 0)) % 12
    rw [Int.add_zero]
    omega
  · intro fields now _
    rw [Int.add_zero]
    rfl

theorem isRun_of_every_sixth_hour :
    IsRun Timekeeping.utc (toCronExpression ⟨0, 0, 0, 0⟩ (.hours 6 none)) 0 fun count => 21600 * count := by
  refine ⟨fun first second less => by show (21600 : Int) * first < 21600 * second; omega, fun now => ?_⟩
  constructor
  · rintro ⟨count, rfl⟩
    have isValid : CronFields.Valid ⟨.values [0], .values [0], .every 6, .any, .any, .any⟩ := by
      constructor <;> simp [CronField.Valid]
    refine ⟨by omega, isValid, ?_, ?_, ?_, trivial, trivial, trivial⟩
    · exact (CronField.matches_single 0 ..).mpr (by omega)
    · exact (CronField.matches_single 0 ..).mpr (by omega)
    · show (6 : Int) ∣ 21600 * (count : Int) / 3600 % 24 - 0
      omega
  · rintro ⟨starts, -, isMatch⟩
    have isSecond : ((0 : Nat) : Int) = now % 60 := (CronField.matches_single ..).mp isMatch.second
    have isMinute : ((0 : Nat) : Int) = now / 60 % 60 := (CronField.matches_single ..).mp isMatch.minute
    have isHour : (6 : Int) ∣ now / 3600 % 24 - 0 := isMatch.hour
    refine ⟨(now / 21600).toNat, ?_⟩
    show 21600 * ((now / 21600).toNat : Int) = now
    omega

theorem recursEvery_of_every_sixth_hour :
    RecursEvery 6 (fun count => (21600 * (count : Int) + 0) / 3600)
      (shouldTrigger Timekeeping.utc (intervalToRecurrence (.hours 6 none) 0) fun count => 21600 * count) :=
  (@recursEvery_iff_isExact _ _ _ (.hours 6 none) _ _ Timekeeping.utc_documented ⟨by decide, by decide⟩ 0
    isRun_of_every_sixth_hour).mpr (show 6 ∣ 24 by decide)

/-- The ticks of a rule at each midnight. -/
theorem isRun_of_every_second_day :
    IsRun Timekeeping.utc (toCronExpression ⟨0, 0, 0, 0⟩ (.days 2 none none)) 0 fun count => 86400 * count := by
  refine ⟨fun first second less => by show (86400 : Int) * first < 86400 * second; omega, fun now => ?_⟩
  constructor
  · rintro ⟨count, rfl⟩
    have isValid : CronFields.Valid ⟨.values [0], .values [0], .values [0], .any, .any, .any⟩ := by
      constructor <;> simp [CronField.Valid]
    refine ⟨by omega, isValid, ?_, ?_, ?_, trivial, trivial, trivial⟩
    · exact (CronField.matches_single 0 ..).mpr (by omega)
    · exact (CronField.matches_single 0 ..).mpr (by omega)
    · exact (CronField.matches_single 0 ..).mpr (by omega)
  · rintro ⟨starts, -, isMatch⟩
    have isSecond : ((0 : Nat) : Int) = now % 60 := (CronField.matches_single ..).mp isMatch.second
    have isMinute : ((0 : Nat) : Int) = now / 60 % 60 := (CronField.matches_single ..).mp isMatch.minute
    have isHour : ((0 : Nat) : Int) = now / 3600 % 24 := (CronField.matches_single ..).mp isMatch.hour
    refine ⟨(now / 86400).toNat, ?_⟩
    show 86400 * ((now / 86400).toNat : Int) = now
    omega

/-- After the 363rd day of a year, the rule waits for a day 0. -/
theorem not_recursEvery_of_every_second_day :
    ¬ ∀ (time : Timekeeping) (utcOffset : Int) (random : RandomInts) (interval : ScheduleInterval) (index : Nat)
      (start : Int) (tick : Nat → Int), time.Documented utcOffset → interval.InRange →
      IsRun time (toCronExpression random interval) start tick →
      RecursEvery interval.size (fun count => interval.period (tick count + utcOffset))
        (shouldTrigger time (intervalToRecurrence interval index) tick) := by
  intro always
  have inRange : (ScheduleInterval.days 2 none none).InRange := ⟨by decide, by decide⟩
  have recurs := always Timekeeping.utc 0 ⟨0, 0, 0, 0⟩ (.days 2 none none) 0 0 _ Timekeeping.utc_documented inRange
    isRun_of_every_second_day
  have exact : (2 : Nat) = 1 :=
    isExact_of_recursEvery Timekeeping.utc_documented inRange 0 isRun_of_every_second_day recurs
  omega

end N8n.Nodes.Schedule
