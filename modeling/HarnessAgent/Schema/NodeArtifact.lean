import HarnessAgent.Foundation.DigitOrder
import HarnessAgent.Foundation.Json
import HarnessAgent.Foundation.TextScan

/-! # Metadata of artifacts

What is stored beside the output file of a node. The time in it is a text that is meant to
be compared as a text, so its form is checked when it is read.
-/

namespace HarnessAgent

open DigitOrder

structure NodeArtifact where
  nodeId : String
  outputType : String
  path : String
  runId : String
  producedAt : String
  size : Nat
  sessionId : Option String
  deriving DecidableEq, Repr

inductive NodeArtifactValidationError
  | emptyOutputType
  | invalidProducedAt
  deriving DecidableEq, Repr

def NodeArtifactValidationError.message : NodeArtifactValidationError → String
  | .emptyOutputType => "'outputType' must be at least 1 character"
  | .invalidProducedAt => "'producedAt' must be a valid ISO-8601 datetime string"

namespace NodeArtifact

def isValidIso8601Datetime (text : List Char) : Bool :=
  if text = [] then false
  else
    match text.dropWhile (· ≠ 'T') with
    | [] => false
    | _ :: timePart =>
        if Text.byteLength (text.takeWhile (· ≠ 'T')) < 10 then false
        else if timePart = [] then false
        else timePart.getLast? = some 'Z'

def validate (artifact : NodeArtifact) : List NodeArtifactValidationError :=
  (if artifact.outputType = "" then [.emptyOutputType] else []) ++
    if isValidIso8601Datetime artifact.producedAt.toList then [] else [.invalidProducedAt]

def optionalText : Option Value → Option (Option String)
  | none | some .null => some none
  | some (.string text) => some (some text)
  | some _ => none

/-- Deserialization: by the names of the members, or by position. -/
def fromValue : Value → Option NodeArtifact
  | .object members => do
      let nodeId ← Members.getStr members "nodeId"
      let outputType ← Members.getStr members "outputType"
      let path ← Members.getStr members "path"
      let runId ← Members.getStr members "runId"
      let producedAt ← Members.getStr members "producedAt"
      let size ← (Members.get members "size").bind Value.asU64
      let sessionId ← optionalText (Members.get members "sessionId")
      pure { nodeId, outputType, path, runId, producedAt, size, sessionId }
  | .array [.string nodeId, .string outputType, .string path, .string runId, .string producedAt,
      .number (.posInt size), session] => do
      let sessionId ← optionalText (some session)
      pure { nodeId, outputType, path, runId, producedAt, size, sessionId }
  | _ => none

def parse (value : Value) : Except (List NodeArtifactValidationError) NodeArtifact :=
  match fromValue value with
  | none => .error [.emptyOutputType]
  | some artifact =>
      if artifact.validate = [] then .ok artifact else .error artifact.validate

/-! ## The form of a time -/

def LooksDated (text : List Char) : Prop :=
  ∃ date time, text = date ++ 'T' :: (time ++ ['Z']) ∧ 'T' ∉ date ∧ 10 ≤ Text.byteLength date

theorem isValidIso8601Datetime_append {date rest : List Char} (before : 'T' ∉ date) :
    isValidIso8601Datetime (date ++ 'T' :: rest) = true ↔
      10 ≤ Text.byteLength date ∧ rest.getLast? = some 'Z' := by
  have passed : ∀ character ∈ date, decide (character ≠ 'T') = true := by
    intro character member
    rw [decide_eq_true_eq]
    intro same
    rw [same] at member
    exact before member
  have filled : date ++ 'T' :: rest ≠ [] := List.append_ne_nil_of_right_ne_nil _ (by simp)
  rw [isValidIso8601Datetime, if_neg filled, List.dropWhile_append_of_pos passed,
    List.takeWhile_append_of_pos passed, List.dropWhile_cons_of_neg (by simp),
    List.takeWhile_cons_of_neg (by simp), List.append_nil]
  dsimp only
  by_cases short : Text.byteLength date < 10
  · rw [if_pos short]
    refine iff_of_false Bool.false_ne_true ?_
    intro both
    omega
  · rw [if_neg short, and_iff_right (Nat.le_of_not_lt short)]
    cases rest with
    | nil => simp
    | cons character rest => rw [if_neg (List.cons_ne_nil _ _), decide_eq_true_eq]

theorem isValidIso8601Datetime_of_not_mem {text : List Char} (without : 'T' ∉ text) :
    isValidIso8601Datetime text = false := by
  have nothing : text.dropWhile (· ≠ 'T') = [] := by
    apply List.dropWhile_eq_nil_iff.mpr
    intro character member
    rw [decide_eq_true_eq]
    intro same
    rw [same] at member
    exact without member
  rw [isValidIso8601Datetime, nothing]
  split
  · rfl
  · rfl

theorem isValidIso8601Datetime_iff (text : List Char) :
    isValidIso8601Datetime text = true ↔ LooksDated text := by
  constructor
  · intro valid
    by_cases separated : 'T' ∈ text
    · rcases List.eq_append_cons_of_mem separated with ⟨date, rest, rfl, before⟩
      rcases (isValidIso8601Datetime_append before).mp valid with ⟨long, last⟩
      rcases List.getLast?_eq_some_iff.mp last with ⟨time, rfl⟩
      exact ⟨date, time, rfl, before, long⟩
    · rw [isValidIso8601Datetime_of_not_mem separated] at valid
      cases valid
  · intro dated
    rcases dated with ⟨date, time, rfl, before, long⟩
    exact (isValidIso8601Datetime_append before).mpr ⟨long, List.getLast?_concat⟩

def isLeapYear (year : Nat) : Bool :=
  year % 4 = 0 && (year % 100 ≠ 0 || year % 400 = 0)

def daysIn (year month : Nat) : Nat :=
  if month = 2 then if isLeapYear year then 29 else 28
  else if month ∈ [4, 6, 9, 11] then 30
  else 31

structure Seconds where
  whole : Nat
  fraction : List Nat
  whole_lt : whole < 60
  fraction_lt : ∀ value ∈ fraction, value < 10

structure Stamp where
  year : Nat
  month : Nat
  day : Nat
  hour : Nat
  minute : Nat
  seconds : Option Seconds
  year_lt : year < 10000
  month_range : 1 ≤ month ∧ month ≤ 12
  day_range : 1 ≤ day ∧ day ≤ daysIn year month
  hour_lt : hour < 24
  minute_lt : minute < 60

namespace Stamp

def fractionText : List Nat → List Char
  | [] => []
  | value :: rest => '.' :: (value :: rest).map digit

def secondsText : Option Seconds → List Char
  | none => []
  | some seconds => ':' :: (padded 2 seconds.whole ++ fractionText seconds.fraction)

def front (stamp : Stamp) : List Char :=
  padded 4 stamp.year ++ '-' :: (padded 2 stamp.month ++ '-' :: (padded 2 stamp.day ++ 'T' ::
    (padded 2 stamp.hour ++ ':' :: (padded 2 stamp.minute ++ secondsText stamp.seconds))))

def text (stamp : Stamp) : List Char := stamp.front ++ ['Z']

def secondsOf : Option Seconds → ℚ
  | none => 0
  | some seconds => seconds.whole + fraction seconds.fraction

/-- The date and time as one number, the year first. Each part has two digits to itself, so
that a later time has the larger number. -/
def moment (stamp : Stamp) : ℚ :=
  stamp.year * 10 ^ 10 + stamp.month * 10 ^ 8 + stamp.day * 10 ^ 6 + stamp.hour * 10 ^ 4 +
    stamp.minute * 10 ^ 2 + secondsOf stamp.seconds

def OrderAgrees (first second : Stamp) : Prop :=
  (first.moment < second.moment → first.text < second.text) ∧
    (second.moment < first.moment → second.text < first.text)

/-! ## The text as a number -/

theorem decimal_separator (other : digitValue separator = none) (rest : List Char) :
    decimal (separator :: rest) = decimal rest := by
  rw [decimal, other]

theorem decimal_fractionText (small : ∀ value ∈ values, value < 10) :
    decimal (fractionText values) = fraction values := by
  cases values with
  | nil => rfl
  | cons value values => rw [fractionText, decimal_separator rfl, decimal_map small]

theorem decimal_secondsText (seconds : Option Seconds) :
    decimal (secondsText seconds) = secondsOf seconds / 10 ^ 2 := by
  cases seconds with
  | none => rw [secondsText, secondsOf, decimal, zero_div]
  | some seconds =>
      have below := seconds.whole_lt
      have fits : seconds.whole < 10 ^ 2 := by omega
      rw [secondsText, decimal_separator rfl, decimal_padded fits,
        decimal_fractionText seconds.fraction_lt, secondsOf]

theorem daysIn_le (year month : Nat) : daysIn year month ≤ 31 := by
  rw [daysIn]
  split
  · split
    · decide
    · decide
  · split
    · decide
    · exact le_refl _

variable (stamp : Stamp)

theorem decimal_front : decimal stamp.front = stamp.moment / 10 ^ 14 := by
  have year : stamp.year < 10 ^ 4 := stamp.year_lt
  have days := daysIn_le stamp.year stamp.month
  have lastMonth := stamp.month_range.2
  have lastDay := stamp.day_range.2
  have lastHour := stamp.hour_lt
  have lastMinute := stamp.minute_lt
  have month : stamp.month < 10 ^ 2 := by omega
  have day : stamp.day < 10 ^ 2 := by omega
  have hour : stamp.hour < 10 ^ 2 := by omega
  have minute : stamp.minute < 10 ^ 2 := by omega
  rw [front, decimal_padded year, decimal_separator rfl, decimal_padded month,
    decimal_separator rfl, decimal_padded day, decimal_separator rfl, decimal_padded hour,
    decimal_separator rfl, decimal_padded minute,
    decimal_secondsText, moment]
  ring

variable (first second : Stamp)

theorem moment_lt_iff :
    first.moment < second.moment ↔ decimal first.front < decimal second.front := by
  rw [decimal_front, decimal_front]
  exact (div_lt_div_iff_of_pos_right (by positivity)).symm

/-! ## Two texts -/

theorem nine_lt : '9' < 'Z' := by decide

theorem fractionText_below (small : ∀ value ∈ values, value < 10) :
    ∀ character ∈ fractionText values, character < 'Z' := by
  cases values with
  | nil =>
      intro character member
      cases member
  | cons value values =>
      intro character member
      rcases List.mem_cons.mp member with rfl | own
      · decide
      · exact (digits_map small).below nine_lt character own

theorem secondsText_below (seconds : Option Seconds) :
    ∀ character ∈ secondsText seconds, character < 'Z' := by
  cases seconds with
  | none =>
      intro character member
      cases member
  | some seconds =>
      intro character member
      rcases List.mem_cons.mp member with rfl | member
      · decide
      · rcases List.mem_append.mp member with own | own
        · exact (digits_padded 2 _).below nine_lt character own
        · exact fractionText_below seconds.fraction_lt character own

theorem aligned_fractionText {first second : List Nat} (firstSmall : ∀ value ∈ first, value < 10)
    (secondSmall : ∀ value ∈ second, value < 10) :
    Aligned 'Z' (fractionText first) (fractionText second) := by
  cases first with
  | nil => exact .ends (fractionText_below secondSmall)
  | cons left first =>
      cases second with
      | nil => exact .ended (fractionText_below firstSmall)
      | cons right second =>
          exact .same '.' ((digits_map firstSmall).aligned (digits_map secondSmall) nine_lt)

theorem aligned_secondsText (first second : Option Seconds) :
    Aligned 'Z' (secondsText first) (secondsText second) := by
  cases first with
  | none => exact .ends (secondsText_below second)
  | some first =>
      cases second with
      | none => exact .ended (secondsText_below (some first))
      | some second =>
          apply Aligned.same
          apply Aligned.append (digits_padded _ _) (digits_padded _ _)
          · rw [length_padded, length_padded]
          · intro _
            exact aligned_fractionText first.fraction_lt second.fraction_lt

theorem aligned_padded {separator : Char} {first second : List Char} (width left right : Nat)
    (aligned : Aligned stop first second) :
    Aligned stop (padded width left ++ separator :: first)
      (padded width right ++ separator :: second) := by
  apply Aligned.append (digits_padded _ _) (digits_padded _ _)
  · rw [length_padded, length_padded]
  · intro _
    exact .same separator aligned

theorem aligned_front : Aligned 'Z' first.front second.front := by
  apply aligned_padded
  apply aligned_padded
  apply aligned_padded
  apply aligned_padded
  apply Aligned.append (digits_padded _ _) (digits_padded _ _)
  · rw [length_padded, length_padded]
  · intro _
    exact aligned_secondsText _ _

/-- The texts are ordered as the times, unless one of them spells out a time that the other
leaves at zero: the `Z` at its end comes after the characters that go on. -/
theorem orderAgrees_iff :
    OrderAgrees first second ↔
      ¬SpellsOut first.front second.front ∧ ¬SpellsOut second.front first.front := by
  rw [← (aligned_front first second).agrees_iff, OrderAgrees, moment_lt_iff, moment_lt_iff]
  rfl

/-! ## Stamps are taken for valid -/

theorem not_mem_padded (other : digitValue character = none) (width number : Nat) :
    character ∉ padded width number := by
  intro member
  rcases digits_padded width number character member with ⟨value, read⟩
  rw [other] at read
  cases read

def date (stamp : Stamp) : List Char :=
  padded 4 stamp.year ++ '-' :: (padded 2 stamp.month ++ '-' :: padded 2 stamp.day)

theorem not_mem_date : 'T' ∉ stamp.date := by
  have parts : ∀ width number, 'T' ∉ padded width number := not_mem_padded rfl
  intro member
  rw [date, List.mem_append, List.mem_cons, List.mem_append, List.mem_cons] at member
  rcases member with year | dash | month | dash | day
  · exact parts _ _ year
  · exact absurd dash (by decide)
  · exact parts _ _ month
  · exact absurd dash (by decide)
  · exact parts _ _ day

theorem length_date : stamp.date.length = 10 := by
  simp only [date, List.length_append, List.length_cons, length_padded]

theorem text_eq_date :
    stamp.text = stamp.date ++ 'T' :: (padded 2 stamp.hour ++ ':' :: (padded 2 stamp.minute ++
      secondsText stamp.seconds) ++ ['Z']) := by
  simp only [text, front, date, List.append_assoc, List.cons_append]

theorem lt_length_text : 16 < stamp.text.length := by
  rw [text_eq_date]
  simp only [List.length_append, List.length_cons, length_padded, length_date]
  omega

theorem front_eq_of_text {first second : Stamp} (same : first.text = second.text) :
    first.front = second.front :=
  List.append_cancel_right same

theorem looksDated : LooksDated stamp.text := by
  refine ⟨stamp.date, _, stamp.text_eq_date, stamp.not_mem_date, ?_⟩
  rw [← stamp.length_date]
  exact Text.length_le_byteLength _

end Stamp

open Stamp

/-- What the check is for, of two texts: it accepts the documented forms alone, and what it
accepts is ordered as the times are. -/
def OrdersTimes (first second : List Char) : Prop :=
  (∀ text ∈ [first, second],
    isValidIso8601Datetime text = true ↔ ∃ stamp : Stamp, stamp.text = text) ∧
    (isValidIso8601Datetime first = true → isValidIso8601Datetime second = true →
      ∃ stamp other : Stamp, stamp.text = first ∧ other.text = second ∧ OrderAgrees stamp other)

/-- The check is what it is for exactly where a text with a `T` and a `Z` is a time, and where
no time goes on where the other one ends, with more than zeros. -/
theorem ordersTimes_iff (first second : List Char) :
    OrdersTimes first second ↔
      (∀ text ∈ [first, second], LooksDated text → ∃ stamp : Stamp, stamp.text = text) ∧
        ∀ stamp other : Stamp, stamp.text = first → other.text = second →
          ¬SpellsOut stamp.front other.front ∧ ¬SpellsOut other.front stamp.front := by
  constructor
  · intro orders
    rcases orders with ⟨forms, order⟩
    constructor
    · intro text member looks
      exact (forms text member).mp ((isValidIso8601Datetime_iff text).mpr looks)
    · intro stamp other first_eq second_eq
      have firstValid := (isValidIso8601Datetime_iff first).mpr (first_eq ▸ stamp.looksDated)
      have secondValid := (isValidIso8601Datetime_iff second).mpr (second_eq ▸ other.looksDated)
      rcases order firstValid secondValid with ⟨own, further, ownText, furtherText, agrees⟩
      have ownFront := front_eq_of_text (ownText.trans first_eq.symm)
      have furtherFront := front_eq_of_text (furtherText.trans second_eq.symm)
      rw [← ownFront, ← furtherFront]
      exact (orderAgrees_iff own further).mp agrees
  · intro condition
    rcases condition with ⟨forms, apart⟩
    constructor
    · intro text member
      rw [isValidIso8601Datetime_iff]
      constructor
      · exact forms text member
      · intro stamped
        rcases stamped with ⟨stamp, rfl⟩
        exact stamp.looksDated
    · intro firstValid secondValid
      rw [isValidIso8601Datetime_iff] at firstValid secondValid
      rcases forms first (by simp) firstValid with ⟨stamp, stampText⟩
      rcases forms second (by simp) secondValid with ⟨other, otherText⟩
      exact ⟨stamp, other, stampText, otherText,
        (orderAgrees_iff stamp other).mpr (apart stamp other stampText otherText)⟩

def leapDayEnd : Stamp where
  year := 2024
  month := 2
  day := 29
  hour := 23
  minute := 59
  seconds := some ⟨59, [5], by decide, by decide⟩
  year_lt := by decide
  month_range := by decide
  day_range := by decide
  hour_lt := by decide
  minute_lt := by decide

example : leapDayEnd.text = "2024-02-29T23:59:59.5Z".toList := by decide

theorem not_ordersTimes_seconds :
    ¬OrdersTimes "2024-01-01T12:00Z".toList "2024-01-01T12:00:30Z".toList ∧
      isValidIso8601Datetime "xxxxxxxxxxTZ".toList = true ∧
      ¬∃ stamp : Stamp, stamp.text = "xxxxxxxxxxTZ".toList := by
  refine ⟨?_, by decide, ?_⟩
  · intro orders
    rcases orders.2 (by decide) (by decide) with ⟨stamp, other, stampText, otherText, agrees⟩
    have short : stamp.front = "2024-01-01T12:00".toList :=
      List.append_cancel_right (stampText.trans (by rfl))
    have long : other.front = "2024-01-01T12:00:30".toList :=
      List.append_cancel_right (otherText.trans (by rfl))
    apply ((orderAgrees_iff stamp other).mp agrees).1
    rw [short, long]
    exact ⟨":30".toList, rfl, '3', by decide, 2, rfl⟩
  · intro stamped
    rcases stamped with ⟨stamp, same⟩
    have length := congrArg List.length same
    have long := stamp.lt_length_text
    rw [length] at long
    exact absurd long (by decide)

end NodeArtifact

end HarnessAgent
