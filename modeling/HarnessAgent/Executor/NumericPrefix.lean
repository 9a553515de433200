import HarnessAgent.Executor.ConditionEvaluator
import HarnessAgent.Foundation.Float64Exact
import HarnessAgent.Foundation.TextLanguage
import HarnessAgent.Foundation.TextScan
import HarnessAgent.Foundation.Utf8

/-! # Numeric prefixes

The numbers that conditions compare are read from the start of a text. The scanner goes
over the bytes of the text and its result is the longest prefix in a grammar of decimal
numerals.
-/

namespace HarnessAgent

namespace ConditionEvaluator

open Text TextLanguage
open scoped Computability

/-! ## The grammar -/

def isSign (character : Char) : Bool :=
  character == '+' || character == '-'

def isPoint (character : Char) : Bool :=
  character == '.'

def isExponentMark (character : Char) : Bool :=
  character == 'e' || character == 'E'

def sign : Language Char :=
  optional (oneOf isSign)

def mantissa : Language Char :=
  repeated isAsciiDigit * optional (oneOf isPoint * (oneOf isAsciiDigit)∗) +
    oneOf isPoint * repeated isAsciiDigit

def exponent : Language Char :=
  oneOf isExponentMark * (sign * repeated isAsciiDigit)

def numeral : Language Char :=
  sign * (mantissa * optional exponent)

variable {text : List Char}

theorem mem_mantissa_iff :
    text ∈ mantissa ↔
      text ∈ repeated isAsciiDigit ∨
      (∃ whole ∈ repeated isAsciiDigit, ∃ fraction ∈ (oneOf isAsciiDigit)∗,
        text = whole ++ '.' :: fraction) ∨
      ∃ fraction ∈ repeated isAsciiDigit, text = '.' :: fraction := by
  have point : ∀ {rest : Language Char} {text : List Char},
      text ∈ oneOf isPoint * rest ↔ ∃ fraction ∈ rest, text = '.' :: fraction := by
    intro rest text
    rw [mem_oneOf_mul]
    constructor
    · intro split
      rcases split with ⟨first, fraction, isPointFirst, isRest, rfl⟩
      rw [beq_iff_eq.mp isPointFirst]
      exact ⟨fraction, isRest, rfl⟩
    · intro split
      rcases split with ⟨fraction, isRest, rfl⟩
      exact ⟨'.', fraction, rfl, isRest, rfl⟩
  rw [mantissa, Language.mem_add, Language.mem_mul, point, ← or_assoc]
  apply or_congr_left
  constructor
  · intro split
    rcases split with ⟨whole, isWhole, behind, isBehind, rfl⟩
    rcases mem_optional.mp isBehind with rfl | pointed
    · rw [List.append_nil]
      exact .inl isWhole
    · rcases point.mp pointed with ⟨fraction, isFraction, rfl⟩
      exact .inr ⟨whole, isWhole, fraction, isFraction, rfl⟩
  · intro cases
    rcases cases with isWhole | ⟨whole, isWhole, fraction, isFraction, rfl⟩
    · exact ⟨text, isWhole, [], mem_optional.mpr (.inl rfl), List.append_nil text⟩
    · exact ⟨whole, isWhole, '.' :: fraction,
        mem_optional.mpr (.inr (point.mpr ⟨fraction, isFraction, rfl⟩)), rfl⟩

/-! ## Signs -/

theorem takeSign_append (text : List Char) : (takeSign text).1 ++ (takeSign text).2 = text := by
  unfold takeSign
  split <;> rfl

theorem takeSign_mem_sign (text : List Char) : (takeSign text).1 ∈ sign := by
  apply mem_optional.mpr
  unfold takeSign
  split
  · exact .inr (mem_oneOf.mpr ⟨'+', rfl, rfl⟩)
  · exact .inr (mem_oneOf.mpr ⟨'-', rfl, rfl⟩)
  · exact .inl rfl

variable {rest front : List Char}

theorem takeSign_of_mem_sign (isSignFront : front ∈ sign)
    (unsigned : ∀ character ∈ rest.head?, isSign character = false) :
    takeSign (front ++ rest) = (front, rest) := by
  rcases mem_optional.mp isSignFront with rfl | single
  · rw [List.nil_append]
    unfold takeSign
    split
    · exact absurd (unsigned '+' rfl) (by decide)
    · exact absurd (unsigned '-' rfl) (by decide)
    · rfl
  · rcases mem_oneOf.mp single with ⟨character, isSignCharacter, rfl⟩
    rcases Bool.or_eq_true _ _ ▸ isSignCharacter with plus | minus
    · rw [beq_iff_eq.mp plus]
      rfl
    · rw [beq_iff_eq.mp minus]
      rfl

/-! ## Runs of digits -/

variable {digits : List Char}

theorem takeWhile_append_of_digits (all : ∀ character ∈ digits, isAsciiDigit character = true)
    (rest : List Char) :
    (digits ++ rest).takeWhile isAsciiDigit = digits ++ rest.takeWhile isAsciiDigit :=
  List.takeWhile_append_of_pos all

theorem takeWhile_mem_kstar (text : List Char) :
    text.takeWhile isAsciiDigit ∈ (oneOf isAsciiDigit)∗ :=
  mem_kstar_oneOf.mpr fun _ member => List.mem_takeWhile_imp member

theorem takeWhile_mem_repeated (shown : text.takeWhile isAsciiDigit ≠ []) :
    text.takeWhile isAsciiDigit ∈ repeated isAsciiDigit :=
  mem_repeated.mpr ⟨shown, fun _ member => List.mem_takeWhile_imp member⟩

theorem head_of_repeated (isDigits : digits ∈ repeated isAsciiDigit) :
    ∃ first rest, digits = first :: rest ∧ isAsciiDigit first = true := by
  rcases mem_repeated.mp isDigits with ⟨shown, all⟩
  cases digits with
  | nil => exact absurd rfl shown
  | cons first rest => exact ⟨first, rest, rfl, all first List.mem_cons_self⟩

variable {character : Char}

theorem isSign_of_isAsciiDigit (digit : isAsciiDigit character = true) :
    isSign character = false := by
  cases signed : isSign character with
  | false => rfl
  | true =>
      rcases Bool.or_eq_true _ _ ▸ signed with plus | minus
      · rw [beq_iff_eq.mp plus] at digit
        cases digit
      · rw [beq_iff_eq.mp minus] at digit
        cases digit

theorem ne_point_of_isAsciiDigit (digit : isAsciiDigit character = true) : character ≠ '.' := by
  intro point
  rw [point] at digit
  cases digit

theorem isAsciiDigit_of_isExponentMark (mark : isExponentMark character = true) :
    isAsciiDigit character = false := by
  rcases Bool.or_eq_true _ _ ▸ mark with lower | upper
  · rw [beq_iff_eq.mp lower]
    rfl
  · rw [beq_iff_eq.mp upper]
    rfl

theorem ne_point_of_isExponentMark (mark : isExponentMark character = true) : character ≠ '.' := by
  intro point
  rw [point] at mark
  cases mark

/-! ## Exponents -/

theorem exponentPrefix_mem (text : List Char) : exponentPrefix text ∈ optional exponent := by
  apply mem_optional.mpr
  cases text with
  | nil => exact .inl rfl
  | cons mark rest =>
      rw [exponentPrefix]
      split
      · next isMark =>
          dsimp only
          split
          · exact .inl rfl
          · next shown =>
              exact .inr (mem_oneOf_mul.mpr ⟨mark, _, isMark,
                Language.mem_mul.mpr ⟨_, takeSign_mem_sign rest, _,
                  takeWhile_mem_repeated shown, rfl⟩, rfl⟩)
      · exact .inl rfl

theorem exponentPrefix_isPrefix (text : List Char) : exponentPrefix text <+: text := by
  cases text with
  | nil => exact List.nil_prefix
  | cons mark rest =>
      rw [exponentPrefix]
      split
      · dsimp only
        split
        · exact List.nil_prefix
        · rw [List.cons_append]
          apply (List.prefix_cons_inj mark).mpr
          have within := (List.prefix_append_right_inj (takeSign rest).1).mpr
            (List.takeWhile_prefix isAsciiDigit : _ <+: (takeSign rest).2)
          rw [takeSign_append] at within
          exact within
      · exact List.nil_prefix

variable {part : List Char}

theorem length_le_exponentPrefix (isExponent : part ∈ exponent) (rest : List Char) :
    part.length ≤ (exponentPrefix (part ++ rest)).length := by
  rcases mem_oneOf_mul.mp isExponent with ⟨mark, behind, isMark, isBehind, rfl⟩
  rcases Language.mem_mul.mp isBehind with ⟨front, isFront, digits, isDigits, rfl⟩
  rcases head_of_repeated isDigits with ⟨digit, later, rfl, isDigit⟩
  have signed : takeSign (front ++ (digit :: later ++ rest)) = (front, digit :: later ++ rest) := by
    apply takeSign_of_mem_sign isFront
    intro character head
    cases head
    exact isSign_of_isAsciiDigit isDigit
  have run := takeWhile_append_of_digits (mem_repeated.mp isDigits).2 rest
  have passed : (mark == 'e' || mark == 'E') = true := isMark
  have taken : exponentPrefix (mark :: (front ++ digit :: later) ++ rest) =
      mark :: front ++ (digit :: later ++ rest.takeWhile isAsciiDigit) := by
    rw [List.cons_append, List.append_assoc, exponentPrefix,
      if_pos passed]
    dsimp only
    rw [signed]
    dsimp only
    rw [run]
    exact if_neg (List.cons_ne_nil _ _)
  rw [taken]
  simp only [List.length_append, List.length_cons]
  omega

/-! ## Mantissas -/

/-- A point at the start of a text with the digits behind it, and the text behind them. -/
def fractionPrefix : List Char → List Char × List Char
  | '.' :: rest => ('.' :: rest.takeWhile isAsciiDigit, rest.dropWhile isAsciiDigit)
  | rest => ([], rest)

/-- The mantissa at the start of a text without a sign, and the text behind it. -/
def mantissaPrefix : List Char → Option (List Char × List Char)
  | '.' :: rest =>
      if rest.takeWhile isAsciiDigit = [] then none
      else some ('.' :: rest.takeWhile isAsciiDigit, rest.dropWhile isAsciiDigit)
  | unsigned =>
      if unsigned.takeWhile isAsciiDigit = [] then none
      else
        let fraction := fractionPrefix (unsigned.dropWhile isAsciiDigit)
        some (unsigned.takeWhile isAsciiDigit ++ fraction.1, fraction.2)

theorem fractionPrefix_of_pointless (pointless : ∀ rest, text ≠ '.' :: rest) :
    fractionPrefix text = ([], text) :=
  fractionPrefix.eq_2 text pointless

variable {unsigned : List Char}

theorem mantissaPrefix_of_pointless (pointless : ∀ rest, unsigned ≠ '.' :: rest) :
    mantissaPrefix unsigned =
      if unsigned.takeWhile isAsciiDigit = [] then none
      else some (unsigned.takeWhile isAsciiDigit ++
        (fractionPrefix (unsigned.dropWhile isAsciiDigit)).1,
          (fractionPrefix (unsigned.dropWhile isAsciiDigit)).2) :=
  mantissaPrefix.eq_2 unsigned pointless

theorem numericPrefix_eq (text : List Char) :
    numericPrefix text = (mantissaPrefix (takeSign text).2).map fun read =>
      (takeSign text).1 ++ (read.1 ++ exponentPrefix read.2) := by
  rw [numericPrefix]
  rcases takeSign text with ⟨front, unsigned⟩
  dsimp only
  split
  · next rest =>
      rw [mantissaPrefix]
      split
      · rfl
      · simp only [Option.map_some, List.cons_append, List.append_assoc]
  · next pointless =>
      rw [mantissaPrefix_of_pointless pointless]
      split
      · rfl
      · split
        · next rest behind =>
            rw [behind, fractionPrefix]
            simp only [Option.map_some, List.cons_append, List.append_assoc]
        · next behind =>
            rw [fractionPrefix_of_pointless behind]
            simp only [Option.map_some, List.append_assoc, List.nil_append]

theorem fractionPrefix_append (text : List Char) :
    (fractionPrefix text).1 ++ (fractionPrefix text).2 = text := by
  unfold fractionPrefix
  split
  · rw [List.cons_append, List.takeWhile_append_dropWhile]
  · rfl

theorem whole_append_fractionPrefix_mem (isWhole : whole ∈ repeated isAsciiDigit) (text : List Char) :
    whole ++ (fractionPrefix text).1 ∈ mantissa := by
  apply mem_mantissa_iff.mpr
  unfold fractionPrefix
  split
  · exact .inr (.inl ⟨whole, isWhole, _, takeWhile_mem_kstar _, rfl⟩)
  · rw [List.append_nil]
    exact .inl isWhole

theorem mantissaPrefix_sound (read : mantissaPrefix unsigned = some (part, rest)) :
    part ∈ mantissa ∧ unsigned = part ++ rest := by
  by_cases pointed : ∃ behind, unsigned = '.' :: behind
  · rcases pointed with ⟨behind, rfl⟩
    rw [mantissaPrefix] at read
    split at read
    · cases read
    · next shown =>
        cases read
        refine ⟨mem_mantissa_iff.mpr (.inr (.inr ⟨_, takeWhile_mem_repeated shown, rfl⟩)), ?_⟩
        rw [List.cons_append, List.takeWhile_append_dropWhile]
  · rw [mantissaPrefix_of_pointless (not_exists.mp pointed)] at read
    split at read
    · cases read
    · next shown =>
        cases read
        refine ⟨whole_append_fractionPrefix_mem (takeWhile_mem_repeated shown) _, ?_⟩
        rw [List.append_assoc, fractionPrefix_append, List.takeWhile_append_dropWhile]

/-- What follows neither goes on with digits nor with a point. -/
def StopsMantissa (rest : List Char) : Prop :=
  ∀ character ∈ rest.head?, isAsciiDigit character = false ∧ character ≠ '.'

theorem StopsMantissa.takeWhile (stops : StopsMantissa rest) :
    rest.takeWhile isAsciiDigit = [] ∧ rest.dropWhile isAsciiDigit = rest := by
  cases rest with
  | nil => exact ⟨rfl, rfl⟩
  | cons next rest => simp [(stops next rfl).1]

theorem mantissaPrefix_whole (isWhole : whole ∈ repeated isAsciiDigit) (text : List Char) :
    mantissaPrefix (whole ++ text) =
      some (whole ++ text.takeWhile isAsciiDigit ++
        (fractionPrefix (text.dropWhile isAsciiDigit)).1,
          (fractionPrefix (text.dropWhile isAsciiDigit)).2) := by
  have all := (mem_repeated.mp isWhole).2
  rcases head_of_repeated isWhole with ⟨digit, later, rfl, isDigit⟩
  have pointless : ∀ rest, digit :: later ++ text ≠ '.' :: rest :=
    fun rest same => ne_point_of_isAsciiDigit isDigit (List.cons.inj same).1
  have shown : digit :: later ++ text.takeWhile isAsciiDigit ≠ [] := List.cons_ne_nil _ _
  rw [mantissaPrefix_of_pointless pointless, takeWhile_append_of_digits all,
    List.dropWhile_append_of_pos all, if_neg shown]

/-- The scanner goes on at least as far as a mantissa, and no further than where the
mantissa cannot go on. -/
theorem mantissaPrefix_complete (isMantissa : part ∈ mantissa) (behind : List Char) :
    ∃ found rest, mantissaPrefix (part ++ behind) = some (found, rest) ∧
      part.length ≤ found.length ∧
      (StopsMantissa behind → found = part ∧ rest = behind) := by
  rcases mem_mantissa_iff.mp isMantissa with
    isWhole | ⟨whole, isWhole, fraction, isFraction, rfl⟩ | ⟨fraction, isFraction, rfl⟩
  · rw [mantissaPrefix_whole isWhole]
    refine ⟨_, _, rfl, ?_, ?_⟩
    · rw [List.append_assoc, List.length_append]
      exact Nat.le_add_right _ _
    · intro stops
      have next : ∀ rest, behind ≠ '.' :: rest :=
        fun rest same => (stops '.' (same ▸ rfl)).2 rfl
      rw [stops.takeWhile.1, stops.takeWhile.2, fractionPrefix_of_pointless next]
      exact ⟨by rw [List.append_nil, List.append_nil], rfl⟩
  · have all := mem_kstar_oneOf.mp isFraction
    have run : ('.' :: fraction ++ behind).takeWhile isAsciiDigit = [] := rfl
    have left : ('.' :: fraction ++ behind).dropWhile isAsciiDigit =
        '.' :: (fraction ++ behind) := rfl
    rw [List.append_assoc, mantissaPrefix_whole isWhole, run, left, fractionPrefix,
      takeWhile_append_of_digits all, List.dropWhile_append_of_pos all]
    refine ⟨_, _, rfl, ?_, ?_⟩
    · simp only [List.length_append, List.length_cons, List.append_nil]
      omega
    · intro stops
      rw [stops.takeWhile.1, stops.takeWhile.2, List.append_nil, List.append_nil]
      exact ⟨rfl, rfl⟩
  · have all := (mem_repeated.mp isFraction).2
    have shown : fraction ++ behind.takeWhile isAsciiDigit ≠ [] :=
      List.append_ne_nil_of_left_ne_nil (mem_repeated.mp isFraction).1 _
    rw [List.cons_append, mantissaPrefix, takeWhile_append_of_digits all, if_neg shown,
      List.dropWhile_append_of_pos all]
    refine ⟨_, _, rfl, ?_, ?_⟩
    · simp only [List.length_append, List.length_cons]
      omega
    · intro stops
      rw [stops.takeWhile.1, stops.takeWhile.2, List.append_nil]
      exact ⟨rfl, rfl⟩

/-! ## Numerals -/

theorem unsigned_of_mem_mantissa (isMantissa : part ∈ mantissa) (rest : List Char) :
    ∀ character ∈ (part ++ rest).head?, isSign character = false := by
  intro character head
  rcases mem_mantissa_iff.mp isMantissa with
    isWhole | ⟨whole, isWhole, fraction, -, rfl⟩ | ⟨fraction, -, rfl⟩
  · rcases head_of_repeated isWhole with ⟨digit, later, rfl, isDigit⟩
    cases head
    exact isSign_of_isAsciiDigit isDigit
  · rcases head_of_repeated isWhole with ⟨digit, later, rfl, isDigit⟩
    cases head
    exact isSign_of_isAsciiDigit isDigit
  · cases head
    rfl

theorem scans_numericPrefix : Scans numeral numericPrefix where
  sound := by
    intro text found scanned
    rw [numericPrefix_eq] at scanned
    rcases Option.map_eq_some_iff.mp scanned with ⟨⟨part, rest⟩, read, rfl⟩
    rcases mantissaPrefix_sound read with ⟨isMantissa, unsigned⟩
    refine ⟨Language.mem_mul.mpr ⟨_, takeSign_mem_sign text, _,
      Language.mem_mul.mpr ⟨part, isMantissa, _, exponentPrefix_mem rest, rfl⟩, rfl⟩, ?_⟩
    have within : part ++ exponentPrefix rest <+: (takeSign text).2 := by
      rw [unsigned]
      exact (List.prefix_append_right_inj part).mpr (exponentPrefix_isPrefix rest)
    have whole := (List.prefix_append_right_inj (takeSign text).1).mpr within
    rw [takeSign_append] at whole
    exact whole
  complete := by
    intro part behind isNumeral
    rcases Language.mem_mul.mp isNumeral with ⟨front, isFront, unsigned, isUnsigned, rfl⟩
    rcases Language.mem_mul.mp isUnsigned with ⟨whole, isMantissa, power, isPower, rfl⟩
    have signed : takeSign (front ++ (whole ++ power) ++ behind) =
        (front, whole ++ (power ++ behind)) := by
      rw [List.append_assoc, List.append_assoc]
      exact takeSign_of_mem_sign isFront (unsigned_of_mem_mantissa isMantissa _)
    rcases mantissaPrefix_complete isMantissa (power ++ behind) with
      ⟨found, rest, read, longer, exactly⟩
    refine ⟨_, by rw [numericPrefix_eq, signed, read]; rfl, ?_⟩
    rcases mem_optional.mp isPower with rfl | isExponent
    · simp only [List.length_append, List.append_nil]
      omega
    · have stops : StopsMantissa (power ++ behind) := by
        rcases mem_oneOf_mul.mp isExponent with ⟨mark, later, isMark, -, rfl⟩
        intro character head
        cases head
        exact ⟨isAsciiDigit_of_isExponentMark isMark, ne_point_of_isExponentMark isMark⟩
      rcases exactly stops with ⟨rfl, rfl⟩
      have powers := length_le_exponentPrefix isExponent behind
      simp only [List.length_append]
      omega

/-! ## The scanner over bytes -/

def isDigitByte (byte : UInt8) : Bool :=
  0x30 ≤ byte && byte ≤ 0x39

def skipDigits (bytes : List UInt8) (i : Nat) : Nat :=
  if inside : i < bytes.length then
    if isDigitByte bytes[i] then skipDigits bytes (i + 1) else i
  else i
termination_by bytes.length - i

def skipSign (bytes : List UInt8) (i : Nat) : Nat :=
  if bytes[i]? = some 0x2B ∨ bytes[i]? = some 0x2D then i + 1 else i

def mantissaEnd (bytes : List UInt8) (digitsStart : Nat) : Option Nat :=
  if bytes[digitsStart]? = some 0x2E then
    let stop := skipDigits bytes (digitsStart + 1)
    if stop = digitsStart + 1 then none else some stop
  else
    let stop := skipDigits bytes digitsStart
    if stop = digitsStart then none
    else if bytes[stop]? = some 0x2E then some (skipDigits bytes (stop + 1))
    else some stop

/-- The index behind the exponent; one without digits is rolled back. -/
def exponentEnd (bytes : List UInt8) (expStart : Nat) : Nat :=
  if bytes[expStart]? = some 0x65 ∨ bytes[expStart]? = some 0x45 then
    let expDigitsStart := skipSign bytes (expStart + 1)
    let stop := skipDigits bytes expDigitsStart
    if stop = expDigitsStart then expStart else stop
  else expStart

def numericEnd (bytes : List UInt8) : Option Nat :=
  (mantissaEnd bytes (skipSign bytes 0)).map (exponentEnd bytes)

/-- The slice up to the index where the scanner stops, unless cutting there panics. -/
def numericSlice (text : List Char) : Option (Option (List Char)) :=
  (numericEnd (utf8 text)).map fun stop => takeBytes stop text

/-! ## Bytes and characters -/

theorem utf8_cons_cases (character : Char) (rest : List Char) :
    (character.toNat < 0x80 ∧
      utf8 (character :: rest) = UInt8.ofNat character.toNat :: utf8 rest) ∨
    (0x80 ≤ character.toNat ∧ ∃ byte later, utf8 (character :: rest) = byte :: later ∧
      0x80 ≤ byte.toNat) := by
  have split : utf8 (character :: rest) = String.utf8EncodeChar character ++ utf8 rest :=
    List.flatMap_cons
  by_cases ascii : character.toNat < 0x80
  · refine .inl ⟨ascii, ?_⟩
    have encoded : String.utf8EncodeChar character = [UInt8.ofNat character.toNat] :=
      if_pos (Nat.le_of_lt_succ ascii)
    rw [split, encoded, List.singleton_append]
  · refine .inr ⟨Nat.le_of_not_lt ascii, ?_⟩
    cases encoded : String.utf8EncodeChar character with
    | nil => exact absurd encoded (String.utf8EncodeChar_ne_nil)
    | cons byte later =>
        refine ⟨byte, later ++ utf8 rest, by rw [split, encoded, List.cons_append], ?_⟩
        apply Nat.le_of_not_lt
        intro small
        have same := toNat_of_mem_utf8EncodeChar
          (encoded ▸ List.mem_cons_self : byte ∈ String.utf8EncodeChar character) small
        omega

def Remains (bytes : List UInt8) (i : Nat) (rest : List Char) : Prop :=
  bytes.drop i = utf8 rest

variable {bytes : List UInt8} {i : Nat}

theorem Remains.getElem? (remains : Remains bytes i rest) : bytes[i]? = (utf8 rest).head? := by
  rw [← List.head?_drop, remains]

theorem Remains.getElem?_iff (remains : Remains bytes i rest) (character : Char)
    (ascii : character.toNat < 0x80) :
    bytes[i]? = some (UInt8.ofNat character.toNat) ↔ rest.head? = some character := by
  have code : (UInt8.ofNat character.toNat).toNat = character.toNat := by
    rw [UInt8.toNat_ofNat']
    omega
  rw [remains.getElem?]
  cases rest with
  | nil => exact iff_of_false nofun nofun
  | cons first later =>
      rcases utf8_cons_cases first later with
        ⟨asciiFirst, encoded⟩ | ⟨above, byte, behind, encoded, large⟩
      · have codeFirst : (UInt8.ofNat first.toNat).toNat = first.toNat := by
          rw [UInt8.toNat_ofNat']
          omega
        rw [encoded, List.head?_cons, List.head?_cons, Option.some_inj, Option.some_inj]
        constructor
        · intro same
          have codes := congrArg UInt8.toNat same
          rw [code, codeFirst] at codes
          exact Char.toNat_inj.mp codes
        · intro same
          rw [same]
      · rw [encoded, List.head?_cons, List.head?_cons, Option.some_inj, Option.some_inj]
        apply iff_of_false
        · intro same
          rw [same, code] at large
          omega
        · intro same
          rw [same] at above
          omega

theorem Remains.succ (remains : Remains bytes i (character :: rest))
    (ascii : character.toNat < 0x80) : Remains bytes (i + 1) rest := by
  rcases utf8_cons_cases character rest with ⟨-, encoded⟩ | ⟨above, -⟩
  · rw [Remains, ← List.drop_drop, remains, encoded]
    rfl
  · omega

theorem skipDigits_of_some (found : bytes[i]? = some byte) :
    skipDigits bytes i = if isDigitByte byte then skipDigits bytes (i + 1) else i := by
  rcases List.getElem?_eq_some_iff.mp found with ⟨inside, same⟩
  rw [skipDigits, dif_pos inside, same]

theorem skipDigits_of_none (ended : bytes[i]? = none) : skipDigits bytes i = i := by
  rw [skipDigits, dif_neg (Nat.not_lt.mpr (List.getElem?_eq_none_iff.mp ended))]

theorem toNat_lt_of_isAsciiDigit (digit : isAsciiDigit character = true) :
    character.toNat < 0x80 := by
  have bounds := of_decide_eq_true (Bool.and_eq_true _ _ ▸ digit).2
  omega

theorem isDigitByte_ofNat (ascii : character.toNat < 0x80) :
    isDigitByte (UInt8.ofNat character.toNat) = isAsciiDigit character := by
  have code : (UInt8.ofNat character.toNat).toNat = character.toNat := by
    rw [UInt8.toNat_ofNat']
    omega
  rw [isDigitByte, isAsciiDigit]
  simp only [UInt8.le_iff_toNat_le, code]
  rfl

theorem isDigitByte_of_large (large : 0x80 ≤ byte.toNat) : isDigitByte byte = false := by
  have above : ¬byte ≤ 0x39 := by
    rw [UInt8.le_iff_toNat_le]
    exact Nat.not_le.mpr (Nat.lt_of_lt_of_le (by decide) large)
  rw [isDigitByte, decide_eq_false above, Bool.and_false]

theorem isAsciiDigit_of_large (large : 0x80 ≤ character.toNat) :
    isAsciiDigit character = false := by
  cases digit : isAsciiDigit character with
  | false => rfl
  | true => exact absurd (toNat_lt_of_isAsciiDigit digit) (Nat.not_lt.mpr large)

/-- Skipping digits stops behind those that the text goes on with. -/
theorem Remains.skipDigits_eq (remains : Remains bytes i rest) :
    skipDigits bytes i = i + (rest.takeWhile isAsciiDigit).length ∧
      Remains bytes (skipDigits bytes i) (rest.dropWhile isAsciiDigit) := by
  induction rest generalizing i with
  | nil =>
      rw [skipDigits_of_none remains.getElem?]
      exact ⟨rfl, remains⟩
  | cons character rest induction =>
      rcases utf8_cons_cases character rest with
        ⟨ascii, encoded⟩ | ⟨large, byte, later, encoded, largeByte⟩
      · have found : bytes[i]? = some (UInt8.ofNat character.toNat) := by
          rw [remains.getElem?, encoded, List.head?_cons]
        rw [skipDigits_of_some found, isDigitByte_ofNat ascii]
        cases digit : isAsciiDigit character with
        | false =>
            rw [List.takeWhile_cons_of_neg (ne_true_of_eq_false digit),
              List.dropWhile_cons_of_neg (ne_true_of_eq_false digit)]
            exact ⟨rfl, remains⟩
        | true =>
            rcases induction (remains.succ ascii) with ⟨index, behind⟩
            rw [List.takeWhile_cons_of_pos digit, List.dropWhile_cons_of_pos digit,
              List.length_cons]
            refine ⟨?_, behind⟩
            rw [if_pos rfl, index]
            omega
      · have found : bytes[i]? = some byte := by
          rw [remains.getElem?, encoded, List.head?_cons]
        have digit := ne_true_of_eq_false (isAsciiDigit_of_large large)
        rw [skipDigits_of_some found, isDigitByte_of_large largeByte,
          List.takeWhile_cons_of_neg digit, List.dropWhile_cons_of_neg digit]
        exact ⟨rfl, remains⟩

theorem takeSign_cases (text : List Char) :
    (∃ rest, text = '+' :: rest ∧ takeSign text = (['+'], rest)) ∨
    (∃ rest, text = '-' :: rest ∧ takeSign text = (['-'], rest)) ∨
    (text.head? ≠ some '+' ∧ text.head? ≠ some '-' ∧ takeSign text = ([], text)) := by
  unfold takeSign
  split
  · next rest => exact .inl ⟨rest, rfl, rfl⟩
  · next rest => exact .inr (.inl ⟨rest, rfl, rfl⟩)
  · next notPlus notMinus =>
      refine .inr (.inr ⟨?_, ?_, rfl⟩)
      · intro head
        rcases List.head?_eq_some_iff.mp head with ⟨rest, split⟩
        exact notPlus rest split
      · intro head
        rcases List.head?_eq_some_iff.mp head with ⟨rest, split⟩
        exact notMinus rest split

theorem Remains.skipSign_eq (remains : Remains bytes i rest) :
    skipSign bytes i = i + (takeSign rest).1.length ∧
      Remains bytes (skipSign bytes i) (takeSign rest).2 := by
  have plus : bytes[i]? = some 0x2B ↔ rest.head? = some '+' :=
    remains.getElem?_iff '+' (by decide)
  have minus : bytes[i]? = some 0x2D ↔ rest.head? = some '-' :=
    remains.getElem?_iff '-' (by decide)
  rw [skipSign]
  rcases takeSign_cases rest with
    ⟨later, rfl, signed⟩ | ⟨later, rfl, signed⟩ | ⟨notPlus, notMinus, signed⟩
  · rw [if_pos (.inl (plus.mpr rfl)), signed]
    exact ⟨rfl, remains.succ (by decide)⟩
  · rw [if_pos (.inr (minus.mpr rfl)), signed]
    exact ⟨rfl, remains.succ (by decide)⟩
  · have unsigned : ¬(bytes[i]? = some 0x2B ∨ bytes[i]? = some 0x2D) :=
      not_or.mpr ⟨fun head => notPlus (plus.mp head), fun head => notMinus (minus.mp head)⟩
    rw [if_neg unsigned, signed]
    exact ⟨rfl, remains⟩

theorem Remains.point_iff (remains : Remains bytes i rest) :
    bytes[i]? = some 0x2E ↔ ∃ behind, rest = '.' :: behind :=
  (remains.getElem?_iff '.' (by decide)).trans List.head?_eq_some_iff

theorem Remains.fraction_eq (remains : Remains bytes i rest) :
    (if bytes[i]? = some 0x2E then some (skipDigits bytes (i + 1)) else some i) =
        some (i + (fractionPrefix rest).1.length) ∧
      Remains bytes (i + (fractionPrefix rest).1.length) (fractionPrefix rest).2 := by
  by_cases pointed : ∃ behind, rest = '.' :: behind
  · rw [if_pos (remains.point_iff.mpr pointed)]
    rcases pointed with ⟨behind, rfl⟩
    rcases (remains.succ (by decide)).skipDigits_eq with ⟨index, left⟩
    have stop : i + ('.' :: behind.takeWhile isAsciiDigit).length = skipDigits bytes (i + 1) := by
      rw [index, List.length_cons]
      omega
    rw [fractionPrefix]
    dsimp only
    rw [stop]
    exact ⟨rfl, left⟩
  · rw [if_neg (fun head => pointed (remains.point_iff.mp head)),
      fractionPrefix_of_pointless (not_exists.mp pointed)]
    exact ⟨rfl, remains⟩

theorem Remains.mantissaEnd_eq (remains : Remains bytes i unsigned) :
    mantissaEnd bytes i = (mantissaPrefix unsigned).map (fun read => i + read.1.length) ∧
      ∀ read ∈ mantissaPrefix unsigned, Remains bytes (i + read.1.length) read.2 := by
  rw [mantissaEnd]
  by_cases pointed : ∃ behind, unsigned = '.' :: behind
  · rw [if_pos (remains.point_iff.mpr pointed)]
    rcases pointed with ⟨behind, rfl⟩
    rcases (remains.succ (by decide)).skipDigits_eq with ⟨index, left⟩
    rw [mantissaPrefix]
    dsimp only
    rw [index] at left ⊢
    by_cases empty : behind.takeWhile isAsciiDigit = []
    · rw [if_pos empty, if_pos (by rw [empty]; rfl)]
      exact ⟨rfl, nofun⟩
    · have longer := List.length_pos_iff.mpr empty
      have stop : i + 1 + (behind.takeWhile isAsciiDigit).length =
          i + ('.' :: behind.takeWhile isAsciiDigit).length := by
        rw [List.length_cons]
        omega
      rw [if_neg empty, if_neg (by omega)]
      refine ⟨congrArg some stop, ?_⟩
      intro read found
      cases found
      rw [← stop]
      exact left
  · rw [if_neg (fun head => pointed (remains.point_iff.mp head)),
      mantissaPrefix_of_pointless (not_exists.mp pointed)]
    rcases remains.skipDigits_eq with ⟨index, left⟩
    dsimp only
    by_cases empty : unsigned.takeWhile isAsciiDigit = []
    · rw [if_pos empty, index, if_pos (by rw [empty]; rfl)]
      exact ⟨rfl, nofun⟩
    · have longer := List.length_pos_iff.mpr empty
      rcases left.fraction_eq with ⟨stop, behind⟩
      rw [if_neg empty, if_neg (by omega), stop, Option.map_some, List.length_append,
        ← Nat.add_assoc, ← index]
      refine ⟨rfl, ?_⟩
      intro read found
      cases found
      rw [List.length_append, ← Nat.add_assoc, ← index]
      exact behind

theorem toNat_lt_of_isExponentMark (isMark : isExponentMark mark = true) : mark.toNat < 0x80 := by
  rcases Bool.or_eq_true _ _ ▸ isMark with isLower | isUpper
  · rw [beq_iff_eq.mp isLower]
    decide
  · rw [beq_iff_eq.mp isUpper]
    decide

theorem Remains.exponentEnd_eq (remains : Remains bytes i rest) :
    exponentEnd bytes i = i + (exponentPrefix rest).length := by
  have lower : bytes[i]? = some 0x65 ↔ rest.head? = some 'e' :=
    remains.getElem?_iff 'e' (by decide)
  have upper : bytes[i]? = some 0x45 ↔ rest.head? = some 'E' :=
    remains.getElem?_iff 'E' (by decide)
  rw [exponentEnd]
  cases rest with
  | nil =>
      have unmarked : ¬(bytes[i]? = some 0x65 ∨ bytes[i]? = some 0x45) :=
        not_or.mpr ⟨fun head => Option.some_ne_none _ (lower.mp head).symm,
          fun head => Option.some_ne_none _ (upper.mp head).symm⟩
      rw [if_neg unmarked]
      rfl
  | cons mark rest =>
      have marked : ((mark == 'e' || mark == 'E') = true) ↔
          (bytes[i]? = some 0x65 ∨ bytes[i]? = some 0x45) := by
        rw [lower, upper, Bool.or_eq_true, beq_iff_eq, beq_iff_eq, List.head?_cons,
          Option.some_inj, Option.some_inj]
      rw [exponentPrefix]
      by_cases isMark : (mark == 'e' || mark == 'E') = true
      · rcases (remains.succ (toNat_lt_of_isExponentMark isMark)).skipSign_eq with ⟨signIndex, unsigned⟩
        rcases unsigned.skipDigits_eq with ⟨index, -⟩
        rw [if_pos isMark, if_pos (marked.mp isMark)]
        dsimp only
        rw [index, signIndex]
        by_cases empty : (takeSign rest).2.takeWhile isAsciiDigit = []
        · rw [if_pos empty, if_pos (by rw [empty]; rfl)]
          rfl
        · have longer := List.length_pos_iff.mpr empty
          rw [if_neg empty, if_neg (by omega)]
          simp only [List.length_append, List.length_cons]
          omega
      · rw [if_neg isMark, if_neg (fun head => isMark (marked.mpr head))]
        rfl

theorem numericEnd_utf8 (text : List Char) :
    numericEnd (utf8 text) = (numericPrefix text).map List.length := by
  have start : Remains (utf8 text) 0 text := rfl
  rcases start.skipSign_eq with ⟨signIndex, unsigned⟩
  rcases unsigned.mantissaEnd_eq with ⟨stop, behind⟩
  rw [numericEnd, stop, numericPrefix_eq, Option.map_map, Option.map_map]
  apply Option.map_congr
  intro read found
  rw [Function.comp_apply, Function.comp_apply, (behind read found).exponentEnd_eq, signIndex,
    List.length_append, List.length_append]
  omega

/-! ## The slice -/

def IsAscii (text : List Char) : Prop :=
  ∀ character ∈ text, character.toNat < 0x80

@[simp] theorem isAscii_nil : IsAscii [] :=
  List.forall_mem_nil _

@[simp] theorem isAscii_cons {first : Char} :
    IsAscii (first :: rest) ↔ first.toNat < 0x80 ∧ IsAscii rest :=
  List.forall_mem_cons

@[simp] theorem isAscii_append {left right : List Char} :
    IsAscii (left ++ right) ↔ IsAscii left ∧ IsAscii right :=
  List.forall_mem_append

theorem takeBytes_of_isAscii (isAscii : IsAscii front) (rest : List Char) :
    takeBytes front.length (front ++ rest) = some front := by
  induction front with
  | nil => rw [List.length_nil, takeBytes]
  | cons character front induction =>
      rcases isAscii_cons.mp isAscii with ⟨small, later⟩
      have size : character.utf8Size = 1 := by
        apply if_pos
        rw [UInt32.le_iff_toNat_le]
        exact Nat.le_of_lt_succ small
      rw [List.length_cons, List.cons_append, takeBytes, size, if_pos (Nat.le_add_left 1 _),
        Nat.add_sub_cancel, induction later]
      rfl

theorem isAscii_of_mem_sign (isFront : front ∈ sign) : IsAscii front := by
  rcases mem_optional.mp isFront with rfl | single
  · exact isAscii_nil
  · rcases mem_oneOf.mp single with ⟨character, isSignCharacter, rfl⟩
    apply isAscii_cons.mpr
    rcases Bool.or_eq_true _ _ ▸ isSignCharacter with plus | minus
    · rw [beq_iff_eq.mp plus]
      exact ⟨by decide, isAscii_nil⟩
    · rw [beq_iff_eq.mp minus]
      exact ⟨by decide, isAscii_nil⟩

theorem isAscii_of_digits (all : ∀ character ∈ digits, isAsciiDigit character = true) :
    IsAscii digits :=
  fun character member => toNat_lt_of_isAsciiDigit (all character member)

theorem isAscii_of_mem_mantissa (isMantissa : part ∈ mantissa) : IsAscii part := by
  rcases mem_mantissa_iff.mp isMantissa with
    isWhole | ⟨whole, isWhole, fraction, isFraction, rfl⟩ | ⟨fraction, isFraction, rfl⟩
  · exact isAscii_of_digits (mem_repeated.mp isWhole).2
  · rw [isAscii_append, isAscii_cons]
    exact ⟨isAscii_of_digits (mem_repeated.mp isWhole).2, by decide,
      isAscii_of_digits (mem_kstar_oneOf.mp isFraction)⟩
  · rw [isAscii_cons]
    exact ⟨by decide, isAscii_of_digits (mem_repeated.mp isFraction).2⟩

theorem isAscii_of_mem_exponent (isExponent : part ∈ exponent) : IsAscii part := by
  rcases mem_oneOf_mul.mp isExponent with ⟨mark, later, isMark, isLater, rfl⟩
  rcases Language.mem_mul.mp isLater with ⟨front, isFront, digits, isDigits, rfl⟩
  rw [isAscii_cons, isAscii_append]
  exact ⟨toNat_lt_of_isExponentMark isMark, isAscii_of_mem_sign isFront,
    isAscii_of_digits (mem_repeated.mp isDigits).2⟩

theorem isAscii_of_mem_numeral (isNumeral : text ∈ numeral) : IsAscii text := by
  rcases Language.mem_mul.mp isNumeral with ⟨front, isFront, unsigned, isUnsigned, rfl⟩
  rcases Language.mem_mul.mp isUnsigned with ⟨whole, isMantissa, power, isPower, rfl⟩
  rw [isAscii_append, isAscii_append]
  refine ⟨isAscii_of_mem_sign isFront, isAscii_of_mem_mantissa isMantissa, ?_⟩
  rcases mem_optional.mp isPower with rfl | isExponent
  · exact isAscii_nil
  · exact isAscii_of_mem_exponent isExponent

theorem numericSlice_eq (text : List Char) : numericSlice text = (numericPrefix text).map some := by
  rw [numericSlice, numericEnd_utf8, Option.map_map]
  apply Option.map_congr
  intro found scanned
  rcases scans_numericPrefix.sound scanned with ⟨isNumeral, rest, rfl⟩
  exact takeBytes_of_isAscii (isAscii_of_mem_numeral isNumeral) rest

/-! ## Numbers -/

/-- The bits of a rounded number without its sign are at most those of infinity. -/
theorem bits_ofRat (number : Rat) :
    (F64.ofRat number).bits.toNat % 2 ^ 63 ≤ F64.infinity.bits.toNat := by
  have bound : ∀ magnitude, F64.ofMagnitude magnitude ≤ 2047 * 2 ^ 52 := by
    intro magnitude
    rw [F64.ofMagnitude]
    split
    · exact Nat.zero_le _
    · exact Nat.min_le_right _ _
  have positive := bound number
  have negative := bound (-number)
  have pattern : F64.infinity.bits.toNat = 2047 * 2 ^ 52 := rfl
  rw [F64.ofRat, pattern, UInt64.toNat_ofNat']
  split <;> omega

theorem ofRat_ne_nan (number : Rat) :
    F64.ofRat number ≠ F64.nan ∧ (F64.ofRat number).neg ≠ F64.nan := by
  have above : F64.infinity.bits.toNat < F64.nan.bits.toNat % 2 ^ 63 := by decide
  have below := bits_ofRat number
  constructor
  · intro same
    rw [← same] at above
    exact absurd above (Nat.not_lt.mpr below)
  · intro same
    rw [← same, F64.toNat_bits_neg] at above
    omega

theorem parseDecimal_ne_nan (numeral : List Char) : parseDecimal numeral ≠ F64.nan := by
  rw [parseDecimal]
  split
  · exact (ofRat_ne_nan _).2
  · exact (ofRat_ne_nan _).1

def SpellsInfinity (text : List Char) : Prop :=
  "Infinity".toList <+: text ∨ "-Infinity".toList <+: text ∨ "+Infinity".toList <+: text

def numberText (text : String) : List Char :=
  text.toList.dropWhile isAsciiWhitespace

theorem parseFloatJs_of_not_spellsInfinity {text : String}
    (finite : ¬SpellsInfinity (numberText text)) :
    parseFloatJs text =
      match numericPrefix (numberText text) with
      | some found => parseDecimal found
      | none => F64.nan := by
  rcases not_or.mp finite with ⟨notPositive, others⟩
  rcases not_or.mp others with ⟨notNegative, notPlus⟩
  have positive := fun found => notPositive (List.isPrefixOf_iff_prefix.mp found)
  have negative := fun found => notNegative (List.isPrefixOf_iff_prefix.mp found)
  have plus := fun found => notPlus (List.isPrefixOf_iff_prefix.mp found)
  rw [parseFloatJs, ← numberText]
  by_cases empty : numberText text = []
  · rw [if_pos empty, empty]
    rfl
  · rewrite [if_neg empty, if_neg positive, if_neg negative, if_neg plus]
    cases numericPrefix (numberText text) <;> rfl

theorem numericSlice_eq_some_iff {found : List Char} :
    numericSlice text = some (some found) ↔ IsLongestPrefix numeral text found := by
  rw [numericSlice_eq, Option.map_eq_some_iff, ← scans_numericPrefix.eq_some_iff]
  constructor
  · intro mapped
    rcases mapped with ⟨other, scanned, same⟩
    cases same
    exact scanned
  · intro scanned
    exact ⟨found, scanned, rfl⟩

/-- Of a text that spells no infinity, the slice that is parsed is the longest numeral it
starts with, cutting it never panics, and there is no number exactly if the text starts
with no numeral. -/
theorem parseFloatJs_longest (text : String) (finite : ¬SpellsInfinity (numberText text)) :
    numericSlice (numberText text) ≠ some none ∧
    (∀ found, numericSlice (numberText text) = some (some found) ↔
      IsLongestPrefix numeral (numberText text) found) ∧
    (∀ found, IsLongestPrefix numeral (numberText text) found →
      parseFloatJs text = parseDecimal found) ∧
    (parseFloatJs text = F64.nan ↔ ∀ part, part <+: numberText text → part ∉ numeral) := by
  have parsed := parseFloatJs_of_not_spellsInfinity finite
  refine ⟨?_, fun found => numericSlice_eq_some_iff, ?_, ?_⟩
  · rw [numericSlice_eq]
    intro panics
    rcases Option.map_eq_some_iff.mp panics with ⟨found, -, same⟩
    cases same
  · intro found longest
    rw [parsed, scans_numericPrefix.eq_some_iff.mpr longest]
  · rw [parsed, ← scans_numericPrefix.eq_none_iff]
    cases scanned : numericPrefix (numberText text) with
    | none => exact iff_of_true rfl rfl
    | some found => exact iff_of_false (parseDecimal_ne_nan found) (Option.some_ne_none found)

/-- The exponent is rolled back in front of a character of two bytes. -/
theorem numericSlice_rollback : numericSlice (numberText " 5.e+é") ≠ some none :=
  (parseFloatJs_longest " 5.e+é" (by rw [SpellsInfinity]; decide)).1

end ConditionEvaluator

end HarnessAgent
