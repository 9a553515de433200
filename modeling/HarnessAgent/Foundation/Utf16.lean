import Mathlib.Algebra.GroupWithZero.Nat
import HarnessAgent.Foundation.Text

/-! # UTF-16

Texts as the code units they are sent as, and code units read as text with U+FFFD in
place of every surrogate that has no partner. A text that is cut after a number of code
units keeps its characters, except one that the cut goes through.
-/

namespace Text

/-! ## Encoding and decoding -/

/-- The code unit of a character, or the two surrogates it is written with. -/
def encodeUtf16Char (character : Char) : List UInt16 :=
  if character.toNat < 0x10000 then [UInt16.ofNat character.toNat]
  else
    [UInt16.ofNat (0xD800 + (character.toNat - 0x10000) / 0x400),
      UInt16.ofNat (0xDC00 + (character.toNat - 0x10000) % 0x400)]

def encodeUtf16 (text : List Char) : List UInt16 :=
  text.flatMap encodeUtf16Char

def IsHighSurrogate (unit : UInt16) : Prop :=
  0xD800 ≤ unit.toNat ∧ unit.toNat < 0xDC00

def IsLowSurrogate (unit : UInt16) : Prop :=
  0xDC00 ≤ unit.toNat ∧ unit.toNat < 0xE000

instance (unit : UInt16) : Decidable (IsHighSurrogate unit) :=
  inferInstanceAs (Decidable (_ ∧ _))

instance (unit : UInt16) : Decidable (IsLowSurrogate unit) :=
  inferInstanceAs (Decidable (_ ∧ _))

def decodePair (high low : UInt16) : Char :=
  Char.ofNat (0x10000 + (high.toNat - 0xD800) * 0x400 + (low.toNat - 0xDC00))

def fromUtf16Lossy : List UInt16 → List Char
  | [] => []
  | [unit] =>
      if IsHighSurrogate unit ∨ IsLowSurrogate unit then [Char.ofNat 0xFFFD]
      else [Char.ofNat unit.toNat]
  | unit :: next :: rest =>
      if IsHighSurrogate unit then
        if IsLowSurrogate next then decodePair unit next :: fromUtf16Lossy rest
        else Char.ofNat 0xFFFD :: fromUtf16Lossy (next :: rest)
      else if IsLowSurrogate unit then Char.ofNat 0xFFFD :: fromUtf16Lossy (next :: rest)
      else Char.ofNat unit.toNat :: fromUtf16Lossy (next :: rest)

theorem fromUtf16Lossy_of_low (low : IsLowSurrogate unit) (rest : List UInt16) :
    fromUtf16Lossy (unit :: rest) = Char.ofNat 0xFFFD :: fromUtf16Lossy rest := by
  have single : ¬IsHighSurrogate unit := by
    rintro ⟨-, below⟩
    exact absurd low.1 (Nat.not_le.mpr below)
  cases rest with
  | nil => exact if_pos (.inr low)
  | cons next rest => rw [fromUtf16Lossy, if_neg single, if_pos low]

theorem fromUtf16Lossy_of_single (single : ¬(IsHighSurrogate unit ∨ IsLowSurrogate unit))
    (rest : List UInt16) :
    fromUtf16Lossy (unit :: rest) = Char.ofNat unit.toNat :: fromUtf16Lossy rest := by
  cases rest with
  | nil => exact if_neg single
  | cons next rest =>
      rw [fromUtf16Lossy, if_neg (fun high => single (.inl high)),
        if_neg (fun low => single (.inr low))]

/-! ## Pairs -/

variable (character : Char)

theorem toNat_lt : character.toNat < 0x110000 := by
  rcases character.valid with low | ⟨-, high⟩
  · exact Nat.lt_trans low (by decide)
  · exact high

theorem not_surrogate : ¬(0xD800 ≤ character.toNat ∧ character.toNat < 0xE000) := by
  rintro ⟨above, below⟩
  rcases character.valid with low | ⟨high, -⟩
  · exact absurd low (Nat.not_lt.mpr above)
  · exact absurd high (Nat.not_lt.mpr (Nat.le_of_lt_succ below))

theorem encodeUtf16Char_cases :
    (utf16Length character = 1 ∧ ∃ unit, encodeUtf16Char character = [unit] ∧
      ¬(IsHighSurrogate unit ∨ IsLowSurrogate unit) ∧ Char.ofNat unit.toNat = character) ∨
    (utf16Length character = 2 ∧ ∃ high low, encodeUtf16Char character = [high, low] ∧
      IsHighSurrogate high ∧ IsLowSurrogate low ∧ decodePair high low = character) := by
  have bound := toNat_lt character
  have gap := not_surrogate character
  by_cases small : character.toNat < 0x10000
  · have code : (UInt16.ofNat character.toNat).toNat = character.toNat := by
      rw [UInt16.toNat_ofNat']
      exact Nat.mod_eq_of_lt small
    refine .inl ⟨if_pos small, UInt16.ofNat character.toNat, if_pos small, ?_, ?_⟩
    · rw [IsHighSurrogate, IsLowSurrogate, code]
      omega
    · rw [code, Char.ofNat_toNat]
  · have codeHigh : (UInt16.ofNat (0xD800 + (character.toNat - 0x10000) / 0x400)).toNat =
        0xD800 + (character.toNat - 0x10000) / 0x400 := by
      rw [UInt16.toNat_ofNat']
      omega
    have codeLow : (UInt16.ofNat (0xDC00 + (character.toNat - 0x10000) % 0x400)).toNat =
        0xDC00 + (character.toNat - 0x10000) % 0x400 := by
      rw [UInt16.toNat_ofNat']
      omega
    refine .inr ⟨if_neg small, _, _, if_neg small, ?_, ?_, ?_⟩
    · rw [IsHighSurrogate, codeHigh]
      omega
    · rw [IsLowSurrogate, codeLow]
      omega
    · have whole : 0x10000 + (0xD800 + (character.toNat - 0x10000) / 0x400 - 0xD800) * 0x400 +
          (0xDC00 + (character.toNat - 0x10000) % 0x400 - 0xDC00) = character.toNat := by
        omega
      rw [decodePair, codeHigh, codeLow, whole, Char.ofNat_toNat]

theorem length_encodeUtf16Char : (encodeUtf16Char character).length = utf16Length character := by
  rcases encodeUtf16Char_cases character with
    ⟨width, unit, encoded, -⟩ | ⟨width, high, low, encoded, -⟩
  · rw [width, encoded, List.length_singleton]
  · rw [width, encoded, List.length_cons, List.length_singleton]

@[simp] theorem fromUtf16Lossy_encodeUtf16Char_append (rest : List UInt16) :
    fromUtf16Lossy (encodeUtf16Char character ++ rest) = character :: fromUtf16Lossy rest := by
  rcases encodeUtf16Char_cases character with
    ⟨-, unit, encoded, single, decoded⟩ | ⟨-, high, low, encoded, isHigh, isLow, decoded⟩
  · rw [encoded, List.singleton_append, fromUtf16Lossy_of_single single, decoded]
  · rw [encoded, List.cons_append, List.singleton_append, fromUtf16Lossy, if_pos isHigh,
      if_pos isLow, decoded]

variable (text : List Char)

@[simp] theorem fromUtf16Lossy_encodeUtf16 :
    fromUtf16Lossy (encodeUtf16 text) = text := by
  induction text with
  | nil => rfl
  | cons character rest induction =>
      rw [encodeUtf16, List.flatMap_cons, fromUtf16Lossy_encodeUtf16Char_append]
      exact congrArg (character :: ·) induction

/-! ## Cutting -/

def utf16Width (text : List Char) : Nat :=
  (text.map utf16Length).sum

@[simp] theorem utf16Width_cons (rest : List Char) :
    utf16Width (character :: rest) = utf16Length character + utf16Width rest := by
  rw [utf16Width, List.map_cons, List.sum_cons, utf16Width]

@[simp] theorem utf16Width_append (left right : List Char) :
    utf16Width (left ++ right) = utf16Width left + utf16Width right := by
  rw [utf16Width, List.map_append, List.sum_append, utf16Width, utf16Width]

theorem length_encodeUtf16 : (encodeUtf16 text).length = utf16Width text := by
  induction text with
  | nil => rfl
  | cons character rest induction =>
      rw [encodeUtf16, List.flatMap_cons, List.length_append, length_encodeUtf16Char,
        utf16Width_cons]
      exact congrArg (utf16Length character + ·) induction

/-- A text cut after a number of units is the decoding of the units behind them. -/
theorem fromUtf16Lossy_drop (units : Nat) :
    fromUtf16Lossy ((encodeUtf16 text).drop units) = dropUtf16 units text := by
  induction text generalizing units with
  | nil => cases units <;> rfl
  | cons character rest induction =>
      cases units with
      | zero => exact fromUtf16Lossy_encodeUtf16 (character :: rest)
      | succ units =>
          rw [dropUtf16, encodeUtf16, List.flatMap_cons, List.drop_append, length_encodeUtf16Char]
          split
          · next fits =>
              rw [List.drop_eq_nil_of_le (le_of_eq_of_le (length_encodeUtf16Char _) fits),
                List.nil_append]
              exact induction _
          · next through =>
              rcases encodeUtf16Char_cases character with
                ⟨width, -⟩ | ⟨width, high, low, encoded, -, isLow, -⟩
              · omega
              · have one : units = 0 := by omega
                subst one
                rw [encoded, width]
                exact (fromUtf16Lossy_of_low isLow _).trans
                  (congrArg _ (fromUtf16Lossy_encodeUtf16 rest))

def CutsPair (units : Nat) (text : List Char) : Prop :=
  ∃ before character after, text = before ++ character :: after ∧
    utf16Length character = 2 ∧ utf16Width before + 1 = units

theorem dropUtf16_cases {text : List Char} (within : units ≤ utf16Width text) :
    (∃ before after, text = before ++ after ∧ utf16Width before = units ∧
      dropUtf16 units text = after) ∨
    (∃ before character after, text = before ++ character :: after ∧
      utf16Length character = 2 ∧ utf16Width before + 1 = units ∧
      dropUtf16 units text = Char.ofNat 0xFFFD :: after) := by
  induction text generalizing units with
  | nil =>
      have none : units = 0 := Nat.le_zero.mp within
      subst none
      exact .inl ⟨[], [], rfl, rfl, rfl⟩
  | cons character rest induction =>
      rw [utf16Width_cons] at within
      cases units with
      | zero => exact .inl ⟨[], character :: rest, rfl, rfl, rfl⟩
      | succ units =>
          rw [dropUtf16]
          split
          · next fits =>
              have left : units + 1 - utf16Length character ≤ utf16Width rest := by omega
              rcases induction left with
                ⟨before, after, split, width, dropped⟩ |
                ⟨before, cut, after, split, pair, width, dropped⟩
              · refine .inl ⟨character :: before, after, ?_, ?_, dropped⟩
                · rw [split, List.cons_append]
                · rw [utf16Width_cons]
                  omega
              · refine .inr ⟨character :: before, cut, after, ?_, pair, ?_, dropped⟩
                · rw [split, List.cons_append]
                · rw [utf16Width_cons]
                  omega
          · next through =>
              have pair : utf16Length character = 2 ∧ units = 0 := by
                rw [utf16Length] at through ⊢
                by_cases small : character.toNat < 0x10000
                · rw [if_pos small] at through
                  omega
                · rw [if_neg small] at through ⊢
                  omega
              rcases pair with ⟨pair, rfl⟩
              exact .inr ⟨[], character, rest, rfl, pair, rfl, rfl⟩

end Text
