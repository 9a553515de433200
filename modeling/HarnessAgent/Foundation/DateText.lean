import HarnessAgent.Foundation.CivilCalendar
import HarnessAgent.Foundation.DigitOrder

/-! # Dates and times as texts

Two forms of a second as a text: date and time with a space or with a `T` between them. Years
of four digits stand without a sign. Texts of one form are ordered as the seconds; between
the forms it is the days alone that decide.
-/

namespace DateText

open CivilCalendar DigitOrder

/-! ## Texts -/

def HasFourDigits (year : Int) : Prop := 0 ≤ year ∧ year ≤ 9999

instance (year : Int) : Decidable (HasFourDigits year) :=
  inferInstanceAs (Decidable (_ ∧ _))

def yearText (year : Int) : List Char :=
  if HasFourDigits year then padded 4 year.toNat
  else
    (if year < 0 then '-' else '+') ::
      (if year.natAbs < 10000 then padded 4 year.natAbs else Nat.toDigits 10 year.natAbs)

def two (number : Int) : List Char := padded 2 number.toNat

def monthDayText (date : Date) : List Char :=
  '-' :: (two date.month ++ '-' :: two date.day)

def dateText (date : Date) : List Char :=
  yearText date.year ++ monthDayText date

def timeText (time : DateTime) : List Char :=
  two time.hour ++ ':' :: (two time.minute ++ ':' :: two time.second)

def stampText (separator : Char) (ending : List Char) (time : DateTime) : List Char :=
  dateText time.date ++ separator :: (timeText time ++ ending)

def yearAt (second : Int) : Int := yearOf (dayOf second)

/-! ## Order -/

theorem two_append_lt (nonneg : 0 ≤ least) (small : most < 100) (less : least < most)
    (first second : List Char) : two least ++ first < two most ++ second := by
  apply padded_append_lt
  · rw [show (10 ^ 2 : Nat) = 100 from rfl]
    omega
  · omega

theorem monthDayText_append_lt (first second : List Char)
    (less : (dateOf early).month < (dateOf late).month ∨
      (dateOf early).month = (dateOf late).month ∧ (dateOf early).day < (dateOf late).day) :
    monthDayText (dateOf early) ++ first < monthDayText (dateOf late) ++ second := by
  have earlyMonth := (within_month early).2
  have lateMonth := (within_month late).2
  have earlyDay := day_range early
  have lateDay := day_range late
  simp only [monthDayText, List.cons_append, List.append_assoc, List.cons_lt_cons_self]
  rcases less with month | ⟨sameMonth, day⟩
  · exact two_append_lt (by omega) (by omega) month _ _
  · rw [sameMonth]
    apply append_lt_append_left
    rw [List.cons_lt_cons_self]
    exact two_append_lt (by omega) (by omega) day _ _

theorem dateText_append_lt (before : (dateOf early).Before (dateOf late))
    (earlyYear : HasFourDigits (dateOf early).year) (lateYear : HasFourDigits (dateOf late).year)
    (first second : List Char) :
    dateText (dateOf early) ++ first < dateText (dateOf late) ++ second := by
  rw [dateText, dateText, yearText, yearText, if_pos earlyYear, if_pos lateYear,
    List.append_assoc, List.append_assoc]
  rw [HasFourDigits] at earlyYear lateYear
  rcases before with year | ⟨sameYear, rest⟩
  · apply padded_append_lt
    · rw [show (10 ^ 4 : Nat) = 10000 from rfl]
      omega
    · omega
  · rw [sameYear]
    apply append_lt_append_left
    exact monthDayText_append_lt first second rest

theorem timeText_append_lt {early late : Int} {earlyLeap lateLeap : Bool}
    (earlier : (shownAt early earlyLeap).Earlier (shownAt late lateLeap))
    (first second : List Char) :
    timeText (shownAt early earlyLeap) ++ first < timeText (shownAt late lateLeap) ++ second := by
  have earlyRange := time_range early earlyLeap
  have lateRange := time_range late lateLeap
  simp only [timeText, List.append_assoc, List.cons_append]
  rcases earlier with hour | ⟨sameHour, minute | ⟨sameMinute, seconds⟩⟩
  · exact two_append_lt (by omega) (by omega) hour _ _
  · rw [sameHour]
    apply append_lt_append_left
    rw [List.cons_lt_cons_self]
    exact two_append_lt (by omega) (by omega) minute _ _
  · rw [sameHour, sameMinute]
    apply append_lt_append_left
    rw [List.cons_lt_cons_self]
    apply append_lt_append_left
    rw [List.cons_lt_cons_self]
    exact two_append_lt (by omega) (by omega) seconds _ _

section Stamps

variable {early late : Int} (earlyLeap lateLeap : Bool)

theorem stampText_lt_of_day (days : dayOf early < dayOf late)
    (earlyYear : HasFourDigits (yearAt early)) (lateYear : HasFourDigits (yearAt late))
    (first second : Char) (firstEnding secondEnding : List Char) :
    stampText first firstEnding (shownAt early earlyLeap) <
      stampText second secondEnding (shownAt late lateLeap) :=
  dateText_append_lt (dateOf_before days) earlyYear lateYear _ _

theorem stampText_lt_of_earlier {earlyLeap lateLeap : Bool} (sameDay : dayOf early = dayOf late)
    (earlier : (shownAt early earlyLeap).Earlier (shownAt late lateLeap)) (separator : Char)
    (first second : List Char) :
    stampText separator first (shownAt early earlyLeap) <
      stampText separator second (shownAt late lateLeap) := by
  have sameDate : (shownAt early earlyLeap).date = (shownAt late lateLeap).date := by
    rw [shownAt, shownAt, dateTimeOf, dateTimeOf, sameDay]
  rw [stampText, stampText, sameDate]
  apply append_lt_append_left
  rw [List.cons_lt_cons_self]
  exact timeText_append_lt earlier first second

theorem stampText_lt {earlyLeap lateLeap : Bool}
    (ordered : early + earlyLeap.toInt < late + lateLeap.toInt)
    (earlyYear : HasFourDigits (yearAt early)) (lateYear : HasFourDigits (yearAt late))
    (separator : Char) (first second : List Char) :
    stampText separator first (shownAt early earlyLeap) <
      stampText separator second (shownAt late lateLeap) := by
  by_cases days : dayOf early < dayOf late
  · exact stampText_lt_of_day _ _ days earlyYear lateYear _ _ _ _
  · have sameDay : dayOf early = dayOf late := by
      have earlyRange := leap_range earlyLeap
      have lateRange := leap_range lateLeap
      rw [dayOf, dayOf, secondsPerDay] at *
      omega
    exact stampText_lt_of_earlier sameDay (earlier_of_lt ordered sameDay) separator first second

theorem not_stampText_lt_of_leap (year : HasFourDigits (yearAt early))
    (nextYear : HasFourDigits (yearAt (early + 1))) (separator : Char) (ending : List Char) :
    ¬stampText separator ending (shownAt (early + 1) false) <
      stampText separator ending (shownAt early true) := by
  intro less
  by_cases days : dayOf early < dayOf (early + 1)
  · exact List.lt_asymm less (stampText_lt_of_day true false days year nextYear _ _ _ _)
  · have sameDay : dayOf early = dayOf (early + 1) := by
      rw [dayOf, dayOf, secondsPerDay] at *
      omega
    rcases not_later_of_leap sameDay with same | earlier
    · rw [same] at less
      exact List.lt_irrefl _ less
    · exact List.lt_asymm less (stampText_lt_of_earlier sameDay earlier separator ending ending)

theorem stampText_lt_iff (earlyYear : HasFourDigits (yearAt early))
    (lateYear : HasFourDigits (yearAt late)) (separator : Char) (ending : List Char) :
    stampText separator ending (shownAt early false) <
      stampText separator ending (shownAt late lateLeap) ↔ early < late + lateLeap.toInt := by
  constructor
  · intro less
    by_contra notLess
    rcases lt_or_eq_of_le (le_of_not_gt notLess) with later | same
    · have reversed : late + lateLeap.toInt < early + false.toInt := by
        rwa [Bool.toInt_false, add_zero]
      exact List.lt_asymm less
        (stampText_lt reversed lateYear earlyYear separator ending ending)
    · cases lateLeap with
      | false =>
          rw [← same, Bool.toInt_false, add_zero] at less
          exact List.lt_irrefl _ less
      | true =>
          rw [← same, Bool.toInt_true] at less
          rw [← same, Bool.toInt_true] at earlyYear
          exact not_stampText_lt_of_leap lateYear earlyYear separator ending less
  · intro less
    have ordered : early + false.toInt < late + lateLeap.toInt := by
      rwa [Bool.toInt_false, add_zero]
    exact stampText_lt ordered earlyYear lateYear separator ending ending

theorem stampText_lt_iff_day (earlyYear : HasFourDigits (yearAt early))
    (lateYear : HasFourDigits (yearAt late)) (separated : separator < other)
    (ending otherEnding : List Char) :
    stampText separator ending (shownAt early earlyLeap) <
      stampText other otherEnding (shownAt late lateLeap) ↔ dayOf early ≤ dayOf late := by
  constructor
  · intro less
    by_contra later
    exact List.lt_asymm less
      (stampText_lt_of_day _ _ (lt_of_not_ge later) lateYear earlyYear _ _ _ _)
  · intro days
    rcases lt_or_eq_of_le days with earlier | sameDay
    · exact stampText_lt_of_day _ _ earlier earlyYear lateYear _ _ _ _
    · have sameDate : (shownAt early earlyLeap).date = (shownAt late lateLeap).date := by
        rw [shownAt, shownAt, dateTimeOf, dateTimeOf, sameDay]
      rw [stampText, stampText, sameDate]
      apply append_lt_append_left
      exact List.cons_lt_cons_iff.mpr (.inl separated)

end Stamps

/-! ## Signed years -/

theorem lt_of_digit (below : sign < '0') (digit : digitValue front = some value) :
    sign < front := by
  rw [digitValue] at digit
  split at digit
  · next shown =>
      rw [Text.isAsciiDigit, Bool.and_eq_true, decide_eq_true_eq, decide_eq_true_eq] at shown
      have zero : '0'.toNat = 48 := rfl
      have small : sign.toNat < '0'.toNat := UInt32.lt_iff_toNat_lt.mp below
      apply UInt32.lt_iff_toNat_lt.mpr
      change sign.toNat < front.toNat
      omega
  · cases digit

theorem stampText_lt_of_signed (outside : ¬HasFourDigits signed.date.year)
    (inside : HasFourDigits unsigned.date.year) (separator other : Char)
    (ending otherEnding : List Char) :
    stampText separator ending signed < stampText other otherEnding unsigned := by
  have digits := digits_padded 4 unsigned.date.year.toNat
  have length := length_padded 4 unsigned.date.year.toNat
  rw [stampText, stampText, dateText, dateText, yearText, yearText, if_neg outside,
    if_pos inside]
  cases shown : padded 4 unsigned.date.year.toNat with
  | nil =>
      rw [shown] at length
      cases length
  | cons front rest =>
      rcases digits front (by rw [shown]; exact List.mem_cons_self) with ⟨value, digit⟩
      apply List.cons_lt_cons_iff.mpr
      refine .inl (lt_of_digit ?_ digit)
      split_ifs with negative
      · decide
      · decide

end DateText
