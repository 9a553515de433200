import Mathlib.Algebra.Order.Group.Int
import Mathlib.Order.Monotone.Basic
import Mathlib.Tactic.Ring

/-! # The civil calendar

Seconds since the start of 1970 as dates and times of the Gregorian calendar, which is taken
to hold at all times. Every part is found as the last of its kind that has started, and so
later seconds have later dates and times.
-/

namespace CivilCalendar

/-! ## Parts of time -/

structure Within (start : Int → Int) (part moment : Int) : Prop where
  started : start part ≤ moment
  notEnded : moment < start (part + 1)

variable {first second : Int}

theorem start_le_of_succ {start : Int → Int} (next : ∀ part, start part ≤ start (part + 1))
    (ordered : first ≤ second) : start first ≤ start second :=
  monotone_int_of_le_succ next ordered

variable {early late : Int}

theorem Within.le (monotone : ∀ {first second}, first ≤ second → start first ≤ start second)
    (inFirst : Within start first early) (inSecond : Within start second late)
    (ordered : early ≤ late) : first ≤ second := by
  by_contra later
  have after : start (second + 1) ≤ start first := monotone (by omega)
  have started := inFirst.started
  have notEnded := inSecond.notEnded
  omega

/-! ## Years -/

def isLeapYear (year : Int) : Bool :=
  year % 4 = 0 && (year % 100 ≠ 0 || year % 400 = 0)

def yearStart (year : Int) : Int :=
  365 * (year - 1970) + (year - 1) / 4 - (year - 1) / 100 + (year - 1) / 400 - 477

def yearLength (leap : Bool) : Int := if leap then 366 else 365

theorem yearStart_succ (year : Int) :
    yearStart (year + 1) = yearStart year + yearLength (isLeapYear year) := by
  rw [yearLength, yearStart, yearStart, isLeapYear]
  by_cases fourth : year % 4 = 0
  · by_cases century : year % 100 = 0
    · by_cases fourHundredth : year % 400 = 0
      · simp [fourth, fourHundredth]
        omega
      · simp [fourth, century, fourHundredth]
        omega
    · simp [fourth, century]
      omega
  · simp [fourth]
    omega

variable (leap : Bool)

theorem yearLength_pos : 0 < yearLength leap := by
  cases leap with
  | false => decide
  | true => decide

theorem monotone_yearStart (ordered : first ≤ second) : yearStart first ≤ yearStart second := by
  refine start_le_of_succ ?_ ordered
  intro year
  have positive := yearLength_pos (isLeapYear year)
  rw [yearStart_succ]
  omega

/-- Four hundred years have 146097 days, and no year is far from where they put it. -/
def yearOf (day : Int) : Int :=
  let guess := 1970 + 400 * day / 146097
  if day < yearStart guess then guess - 1
  else if yearStart (guess + 1) ≤ day then guess + 1
  else guess

variable (day : Int)

theorem within_yearOf : Within yearStart (yearOf day) day := by
  rw [yearOf]
  generalize guessed : 1970 + 400 * day / 146097 = guess
  have before : yearStart (guess - 1) ≤ day := by
    rw [yearStart]
    omega
  have after : day < yearStart (guess + 1 + 1) := by
    rw [yearStart]
    omega
  split
  · next early =>
      refine ⟨before, ?_⟩
      rw [sub_add_cancel]
      exact early
  · next notEarly =>
      split
      · next late => exact ⟨late, after⟩
      · next notLate => exact ⟨le_of_not_gt notEarly, lt_of_not_ge notLate⟩

/-! ## Months -/

/-- The days of the year before a month, counted from one; behind the last month they are the
days of the year. -/
def monthStart (leap : Bool) (month : Int) : Int :=
  (367 * month - 362) / 12 - if month ≤ 2 then 0 else if leap then 1 else 2

def monthOf (leap : Bool) (day : Int) : Int :=
  let shifted := day + if day < monthStart leap 3 then 0 else if leap then 1 else 2
  (12 * shifted + 373) / 367

theorem within_monthOf {leap : Bool} {day : Int} (nonneg : 0 ≤ day)
    (below : day < yearLength leap) :
    Within (monthStart leap) (monthOf leap day) day ∧ 1 ≤ monthOf leap day ∧
      monthOf leap day ≤ 12 := by
  have march : monthStart leap 3 = if leap then 60 else 59 := by
    cases leap with
    | false => rfl
    | true => rfl
  rw [yearLength] at below
  rw [monthOf, march]
  by_cases early : day < if leap then 60 else 59
  · rw [if_pos early]
    refine ⟨⟨?_, ?_⟩, ?_, ?_⟩
    · rw [monthStart]
      split_ifs at early ⊢ <;> omega
    · rw [monthStart]
      split_ifs at early ⊢ <;> omega
    · omega
    · split_ifs at early <;> omega
  · rw [if_neg early]
    refine ⟨⟨?_, ?_⟩, ?_, ?_⟩
    · rw [monthStart]
      split_ifs at early below ⊢ <;> omega
    · rw [monthStart]
      split_ifs at early below ⊢ <;> omega
    · split_ifs at early ⊢ <;> omega
    · split_ifs at below ⊢ <;> omega

theorem monotone_monthStart (ordered : first ≤ second) :
    monthStart leap first ≤ monthStart leap second := by
  refine start_le_of_succ ?_ ordered
  intro month
  rw [monthStart, monthStart]
  split_ifs <;> omega

theorem monthStart_succ_le (month : Int) :
    monthStart leap (month + 1) ≤ monthStart leap month + 31 := by
  rw [monthStart, monthStart]
  split_ifs <;> omega

/-! ## Dates -/

structure Date where
  year : Int
  month : Int
  day : Int
  deriving DecidableEq, Repr

def dayOfYear (day : Int) : Int := day - yearStart (yearOf day)

def dateOf (day : Int) : Date :=
  let leap := isLeapYear (yearOf day)
  let month := monthOf leap (dayOfYear day)
  { year := yearOf day
    month := month
    day := dayOfYear day - monthStart leap month + 1 }

example : dateOf 0 = ⟨1970, 1, 1⟩ := by decide

example : dateOf 19782 = ⟨2024, 2, 29⟩ := by decide

def Date.Before (first second : Date) : Prop :=
  first.year < second.year ∨ first.year = second.year ∧
    (first.month < second.month ∨ first.month = second.month ∧ first.day < second.day)

theorem dayOfYear_range :
    0 ≤ dayOfYear day ∧ dayOfYear day < yearLength (isLeapYear (yearOf day)) := by
  have within := within_yearOf day
  have started := within.started
  have notEnded := within.notEnded
  rw [yearStart_succ] at notEnded
  rw [dayOfYear]
  omega

theorem within_month :
    Within (monthStart (isLeapYear (dateOf day).year)) (dateOf day).month (dayOfYear day) ∧
      1 ≤ (dateOf day).month ∧ (dateOf day).month ≤ 12 :=
  within_monthOf (dayOfYear_range day).1 (dayOfYear_range day).2

theorem day_eq :
    (dateOf day).day =
      dayOfYear day - monthStart (isLeapYear (dateOf day).year) (dateOf day).month + 1 :=
  rfl

theorem day_range : 1 ≤ (dateOf day).day ∧ (dateOf day).day ≤ 31 := by
  have within := (within_month day).1
  have started := within.started
  have notEnded := within.notEnded
  have length := monthStart_succ_le (isLeapYear (dateOf day).year) (dateOf day).month
  rw [day_eq]
  omega

theorem yearOf_le (ordered : early ≤ late) : yearOf early ≤ yearOf late :=
  (within_yearOf early).le monotone_yearStart (within_yearOf late) ordered

theorem dateOf_before (ordered : early < late) : (dateOf early).Before (dateOf late) := by
  have years := yearOf_le (le_of_lt ordered)
  rcases lt_or_eq_of_le years with earlier | sameYear
  · exact .inl earlier
  · refine .inr ⟨sameYear, ?_⟩
    have sameDateYear : (dateOf early).year = (dateOf late).year := sameYear
    have daysOrdered : dayOfYear early < dayOfYear late := by
      rw [dayOfYear, dayOfYear, sameYear]
      omega
    have inEarly := (within_month early).1
    have inLate := (within_month late).1
    rw [sameDateYear] at inEarly
    have months := inEarly.le (monotone_monthStart _) inLate (le_of_lt daysOrdered)
    rcases lt_or_eq_of_le months with earlierMonth | sameMonth
    · exact .inl earlierMonth
    · refine .inr ⟨sameMonth, ?_⟩
      rw [day_eq, day_eq, sameDateYear, sameMonth]
      omega

/-! ## Times -/

structure DateTime where
  date : Date
  hour : Int
  minute : Int
  second : Int
  deriving DecidableEq, Repr

def secondsPerDay : Int := 86400

def dayOf (second : Int) : Int := second / secondsPerDay

def dateTimeOf (second : Int) : DateTime where
  date := dateOf (dayOf second)
  hour := second % secondsPerDay / 3600
  minute := second % 3600 / 60
  second := second % 60

def shownAt (second : Int) (leap : Bool) : DateTime :=
  { dateTimeOf second with second := (dateTimeOf second).second + leap.toInt }

def DateTime.Earlier (first second : DateTime) : Prop :=
  first.hour < second.hour ∨ first.hour = second.hour ∧
    (first.minute < second.minute ∨ first.minute = second.minute ∧ first.second < second.second)

theorem leap_range : 0 ≤ leap.toInt ∧ leap.toInt ≤ 1 := by
  cases leap with
  | false => decide
  | true => decide

theorem time_range (second : Int) (leap : Bool) :
    (0 ≤ (shownAt second leap).hour ∧ (shownAt second leap).hour < 24) ∧
      (0 ≤ (shownAt second leap).minute ∧ (shownAt second leap).minute < 60) ∧
      0 ≤ (shownAt second leap).second ∧ (shownAt second leap).second ≤ 60 := by
  have range := leap_range leap
  rw [shownAt, dateTimeOf, secondsPerDay]
  dsimp only
  omega

theorem earlier_of_lt (ordered : early + earlyLeap.toInt < late + lateLeap.toInt)
    (sameDay : dayOf early = dayOf late) :
    (shownAt early earlyLeap).Earlier (shownAt late lateLeap) := by
  have earlyRange := leap_range earlyLeap
  have lateRange := leap_range lateLeap
  rw [dayOf, dayOf, secondsPerDay] at sameDay
  rw [DateTime.Earlier, shownAt, shownAt, dateTimeOf, dateTimeOf, secondsPerDay]
  dsimp only
  omega

theorem not_later_of_leap (sameDay : dayOf second = dayOf (second + 1)) :
    shownAt second true = shownAt (second + 1) false ∨
      (shownAt second true).Earlier (shownAt (second + 1) false) := by
  by_cases last : second % 60 = 59
  · right
    rw [dayOf, dayOf, secondsPerDay] at sameDay
    rw [DateTime.Earlier, shownAt, shownAt, dateTimeOf, dateTimeOf, secondsPerDay, Bool.toInt_true,
      Bool.toInt_false]
    dsimp only
    omega
  · left
    rw [shownAt, shownAt, dateTimeOf, dateTimeOf, sameDay, DateTime.mk.injEq]
    rw [dayOf, dayOf, secondsPerDay] at sameDay
    rw [secondsPerDay, Bool.toInt_true, Bool.toInt_false]
    dsimp only
    refine ⟨rfl, ?_, ?_, ?_⟩
    · omega
    · omega
    · omega

end CivilCalendar
