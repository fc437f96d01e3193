import Mathlib.Logic.Function.Basic
import N8n.Library.Calendar
import N8n.Library.Recurrence

/-! # The schedule trigger

`packages/nodes-base/nodes/Schedule/GenericFunctions.ts`: the cron expression of
an interval and the filter on its ticks.  `moment-timezone` and the `cron`
package are given by what they do in one time zone; moments are in seconds.
-/

namespace N8n.Nodes.Schedule

inductive TypeInterval where
  | hours
  | days
  | weeks
  | months
deriving DecidableEq, Repr

inductive IRecurrenceRule where
  | notActivated
  | activated (index intervalSize : Nat) (typeInterval : TypeInterval)
deriving DecidableEq, Repr

inductive ScheduleInterval where
  | cronExpression (expression : String)
  | seconds (secondsInterval : Nat)
  | minutes (minutesInterval : Nat)
  | hours (hoursInterval : Nat) (triggerAtMinute : Option Nat)
  | days (daysInterval : Nat) (triggerAtHour triggerAtMinute : Option Nat)
  | weeks (weeksInterval : Nat) (triggerAtDay : List Nat) (triggerAtHour triggerAtMinute : Option Nat)
  | months (monthsInterval : Nat) (triggerAtDayOfMonth triggerAtHour triggerAtMinute : Option Nat)
deriving DecidableEq, Repr

/-! ## Cron expressions -/

inductive CronField where
  | any
  | every (interval : Nat)
  | values (listed : List Nat)
deriving DecidableEq, Repr

def CronField.text : CronField → String
  | .any => "*"
  | .every interval => "*/" ++ toString interval
  | .values listed => String.intercalate "," (listed.map toString)

structure CronFields where
  second : CronField
  minute : CronField
  hour : CronField
  dayOfMonth : CronField
  month : CronField
  dayOfWeek : CronField
deriving DecidableEq, Repr

inductive CronExpression where
  | custom (expression : String)
  | fields (fields : CronFields)
deriving DecidableEq, Repr

def CronExpression.text : CronExpression → String
  | .custom expression => expression
  | .fields parts => String.intercalate " " [parts.second.text, parts.minute.text, parts.hour.text,
      parts.dayOfMonth.text, parts.month.text, parts.dayOfWeek.text]

/-- What the calls of `randomInt` return. -/
structure RandomInts where
  second : Nat
  minute : Nat
  hour : Nat
  dayOfMonth : Nat
deriving DecidableEq, Repr

def toCronExpression (random : RandomInts) : ScheduleInterval → CronExpression
  | .cronExpression expression => .custom expression
  | .seconds secondsInterval => .fields ⟨.every secondsInterval, .any, .any, .any, .any, .any⟩
  | .minutes minutesInterval => .fields ⟨.values [random.second], .every minutesInterval, .any, .any, .any, .any⟩
  | .hours hoursInterval triggerAtMinute =>
    let minute := triggerAtMinute.getD random.minute
    .fields ⟨.values [random.second], .values [minute], .every hoursInterval, .any, .any, .any⟩
  | .days _ triggerAtHour triggerAtMinute =>
    let minute := triggerAtMinute.getD random.minute
    let hour := triggerAtHour.getD random.hour
    .fields ⟨.values [random.second], .values [minute], .values [hour], .any, .any, .any⟩
  | .weeks _ triggerAtDay triggerAtHour triggerAtMinute =>
    let minute := triggerAtMinute.getD random.minute
    let hour := triggerAtHour.getD random.hour
    let daysOfWeek := if triggerAtDay.length = 0 then .any else .values triggerAtDay
    .fields ⟨.values [random.second], .values [minute], .values [hour], .any, .any, daysOfWeek⟩
  | .months monthsInterval triggerAtDayOfMonth triggerAtHour triggerAtMinute =>
    let minute := triggerAtMinute.getD random.minute
    let hour := triggerAtHour.getD random.hour
    let dayOfMonth := triggerAtDayOfMonth.getD random.dayOfMonth
    .fields ⟨.values [random.second], .values [minute], .values [hour], .values [dayOfMonth], .every monthsInterval,
      .any⟩

example : (toCronExpression ⟨30, 30, 12, 15⟩ (.hours 3 (some 22))).text = "30 22 */3 * * *" := by decide

example : (toCronExpression ⟨30, 30, 12, 15⟩ (.weeks 2 [1, 3, 5] none none)).text = "30 30 12 * * 1,3,5" := by decide

example : (toCronExpression ⟨30, 30, 12, 15⟩ (.months 3 none none none)).text = "30 30 12 15 */3 *" := by decide

/-! ## Recurrence -/

def intervalToRecurrence (interval : ScheduleInterval) (index : Nat) : IRecurrenceRule :=
  match interval with
  | .hours hoursInterval _ => if hoursInterval ≠ 1 then .activated index hoursInterval .hours else .notActivated
  | .days daysInterval _ _ => if daysInterval ≠ 1 then .activated index daysInterval .days else .notActivated
  | .weeks weeksInterval _ _ _ => if weeksInterval ≠ 1 then .activated index weeksInterval .weeks else .notActivated
  | .months monthsInterval _ _ _ =>
    if monthsInterval ≠ 1 then .activated index monthsInterval .months else .notActivated
  | _ => .notActivated

/-- What `moment.tz(timezone)` and `CronJob` bring: the fields of a moment, and whether a job ticks at it. -/
structure Timekeeping where
  hour : Int → Nat
  dayOfYear : Int → Nat
  week : Int → Nat
  month : Int → Nat
  ticks : CronExpression → Int → Prop

/-- `recurrenceRules`, in which an index may have no value. -/
abbrev RecurrenceRules := Nat → Option Nat

/-- The check of one type of interval, for a value of the moment and the one that is stored. -/
def accepts (intervalSize modulus : Nat) (sameAgain : Bool) (lastExecution value : Nat) : Bool :=
  value = (intervalSize + lastExecution) % modulus || (sameAgain && value = lastExecution)

def checkValue (intervalSize modulus : Nat) (sameAgain : Bool) (index value : Nat) (recurrenceRules : RecurrenceRules) :
    Bool × RecurrenceRules :=
  if Recurrence.isLetThrough (accepts intervalSize modulus sameAgain) (recurrenceRules index) value then
    (true, Function.update recurrenceRules index (some value))
  else (false, recurrenceRules)

def recurrenceCheck (time : Timekeeping) (recurrence : IRecurrenceRule) (recurrenceRules : RecurrenceRules)
    (now : Int) : Bool × RecurrenceRules :=
  match recurrence with
  | .notActivated => (true, recurrenceRules)
  | .activated index intervalSize typeInterval =>
    if intervalSize = 0 then (false, recurrenceRules)
    else match typeInterval with
      | .hours => checkValue intervalSize 24 false index (time.hour now) recurrenceRules
      | .days => checkValue intervalSize 365 false index (time.dayOfYear now) recurrenceRules
      | .weeks => checkValue intervalSize 52 true index (time.week now) recurrenceRules
      | .months => checkValue intervalSize 12 false index (time.month now) recurrenceRules

/-! ## Ticks -/

/-- The day of a local moment; the first day of 1970 has this number. -/
def localDay (moment : Int) : Int := moment / 86400 + 719162

def CronField.Matches (field : CronField) (first value : Int) : Prop :=
  match field with
  | .any => True
  | .every interval => (interval : Int) ∣ value - first
  | .values listed => ∃ number ∈ listed, (number : Int) = value

/-- Sunday is 0 or 7. -/
def CronField.MatchesWeekday (field : CronField) (weekday : Int) : Prop :=
  match field with
  | .any => True
  | .every interval => (interval : Int) ∣ weekday
  | .values listed => ∃ number ∈ listed, (number : Int) % 7 = weekday

def CronField.Valid (field : CronField) (low high : Nat) : Prop :=
  match field with
  | .any => True
  | .every interval => 0 < interval
  | .values listed => ∀ number ∈ listed, low ≤ number ∧ number ≤ high

/-- The expressions that are not refused. -/
structure CronFields.Valid (fields : CronFields) : Prop where
  second : fields.second.Valid 0 59
  minute : fields.minute.Valid 0 59
  hour : fields.hour.Valid 0 23
  dayOfMonth : fields.dayOfMonth.Valid 1 31
  month : fields.month.Valid 1 12
  dayOfWeek : fields.dayOfWeek.Valid 0 7

/-- The local moments of an expression that does not restrict both days of months and days of weeks.  Days of months
and months are counted from 1. -/
structure CronFields.Matches (fields : CronFields) (moment : Int) : Prop where
  second : fields.second.Matches 0 (moment % 60)
  minute : fields.minute.Matches 0 (moment / 60 % 60)
  hour : fields.hour.Matches 0 (moment / 3600 % 24)
  dayOfMonth : fields.dayOfMonth.Matches 1 (Calendar.dayOfMonth (localDay moment))
  month : fields.month.Matches 1 (Calendar.monthOf (localDay moment) % 12 + 1)
  dayOfWeek : fields.dayOfWeek.MatchesWeekday (Calendar.weekday (localDay moment))

/-- What the packages document, in a time zone that is always the same number of seconds ahead. -/
structure Timekeeping.Documented (time : Timekeeping) (utcOffset : Int) : Prop where
  hour : ∀ now, (time.hour now : Int) = (now + utcOffset) / 3600 % 24
  dayOfYear : ∀ now, time.dayOfYear now = Calendar.dayOfYear (localDay (now + utcOffset))
  week : ∀ now, time.week now = Calendar.weekOfYear (Calendar.weekOf (localDay (now + utcOffset)))
  month : ∀ now, (time.month now : Int) = Calendar.monthOf (localDay (now + utcOffset)) % 12
  ticks : ∀ fields now, fields.dayOfMonth = .any ∨ fields.dayOfWeek = .any →
    (time.ticks (.fields fields) now ↔ fields.Valid ∧ fields.Matches (now + utcOffset))

/-- All moments from a start on at which a job ticks, one after the other. -/
structure IsRun (time : Timekeeping) (expression : CronExpression) (start : Int) (tick : Nat → Int) : Prop where
  strictMono : StrictMono tick
  mem_iff : ∀ now, (∃ count, tick count = now) ↔ start ≤ now ∧ time.ticks expression now

def rulesBefore (time : Timekeeping) (recurrence : IRecurrenceRule) (tick : Nat → Int) : Nat → RecurrenceRules
  | 0 => fun _ => none
  | count + 1 => (recurrenceCheck time recurrence (rulesBefore time recurrence tick count) (tick count)).2

def shouldTrigger (time : Timekeeping) (recurrence : IRecurrenceRule) (tick : Nat → Int) (count : Nat) : Bool :=
  (recurrenceCheck time recurrence (rulesBefore time recurrence tick count) (tick count)).1

/-! ## Exact intervals -/

namespace ScheduleInterval

def size : ScheduleInterval → Nat
  | cronExpression _ => 0
  | seconds interval | minutes interval | hours interval _ | days interval _ _ | weeks interval _ _ _ |
    months interval _ _ _ => interval

def period : ScheduleInterval → Int → Int
  | hours _ _, moment => moment / 3600
  | weeks _ _ _ _, moment => Calendar.weekOf (localDay moment)
  | months _ _ _ _, moment => Calendar.monthOf (localDay moment)
  | _, moment => localDay moment

/-- The rules in hours, days, weeks and months. -/
def InRange : ScheduleInterval → Prop
  | hours interval _ => 1 ≤ interval ∧ interval ≤ 23
  | days interval _ _ => 1 ≤ interval ∧ interval ≤ 366
  | weeks interval _ _ _ => 1 ≤ interval ∧ interval ≤ 52
  | months interval _ _ _ => 1 ≤ interval ∧ interval ≤ 12
  | _ => False

/-- The hours divide a day and the months a year, all months of the rule have its day, and days and weeks are not
left out. -/
def IsExact (random : RandomInts) : ScheduleInterval → Prop
  | hours interval _ => interval ∣ 24
  | days interval _ _ | weeks interval _ _ _ => interval = 1
  | months interval triggerAtDayOfMonth _ _ =>
    let day := triggerAtDayOfMonth.getD random.dayOfMonth
    interval ∣ 12 ∧ (day ≤ 28 ∨ interval ≠ 1 ∧ day ≤ 30 ∨ interval = 6 ∨ interval = 12)
  | _ => False

end ScheduleInterval

end N8n.Nodes.Schedule
