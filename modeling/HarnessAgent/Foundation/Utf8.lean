import HarnessAgent.Foundation.Text
import Mathlib.Algebra.Ring.Nat

/-! # Bytes and texts

Texts as the bytes they are sent as, and the lines and numbers that are read from
them.
-/

namespace Text

/-! ## UTF-8 -/

def utf8 (text : List Char) : List UInt8 :=
  text.flatMap String.utf8EncodeChar

def fromUtf8 (bytes : List UInt8) : Option (List Char) :=
  bytes.toByteArray.utf8Decode?.map Array.toList

@[simp] theorem fromUtf8_utf8 (text : List Char) : fromUtf8 (utf8 text) = some text := by
  have decoded : text.utf8Encode.utf8Decode? = some text.toArray := List.utf8Decode?_utf8Encode
  simp [fromUtf8, utf8, ← List.utf8Encode.eq_1, decoded]

@[simp] theorem utf8_append (left right : List Char) :
    utf8 (left ++ right) = utf8 left ++ utf8 right :=
  List.flatMap_append

variable {text : List Char}

theorem utf8_ne_nil (shown : text ≠ []) : utf8 text ≠ [] := by
  cases text with
  | nil => exact absurd rfl shown
  | cons character rest => simp [utf8, String.utf8EncodeChar_ne_nil]

variable {character : Char}

theorem toNat_of_mem_utf8EncodeChar (member : byte ∈ String.utf8EncodeChar character)
    (ascii : byte.toNat < 0x80) : character.toNat = byte.toNat := by
  have code : character.val.toNat = character.toNat := rfl
  simp only [String.utf8EncodeChar] at member
  split at member
  · next small =>
      simp only [List.mem_singleton] at member
      subst member
      simp only [UInt8.toNat_ofNat'] at ascii ⊢
      omega
  · exfalso
    split at member
    · simp only [List.mem_cons, List.not_mem_nil, or_false] at member
      rcases member with rfl | rfl <;> simp only [UInt8.toNat_ofNat'] at ascii <;> omega
    · split at member
      · simp only [List.mem_cons, List.not_mem_nil, or_false] at member
        rcases member with rfl | rfl | rfl <;> simp only [UInt8.toNat_ofNat'] at ascii <;> omega
      · simp only [List.mem_cons, List.not_mem_nil, or_false] at member
        rcases member with rfl | rfl | rfl | rfl <;> simp only [UInt8.toNat_ofNat'] at ascii <;>
          omega

theorem mem_of_mem_utf8 (member : byte ∈ utf8 text) (ascii : byte.toNat < 0x80) :
    ∃ character ∈ text, character.toNat = byte.toNat := by
  obtain ⟨character, listed, encoded⟩ := List.mem_flatMap.mp member
  exact ⟨character, listed, toNat_of_mem_utf8EncodeChar encoded ascii⟩

/-! ## Lines -/

def splitInclusive : List Char → List (List Char)
  | [] => []
  | character :: rest =>
      if character = '\n' then [character] :: splitInclusive rest
      else
        match splitInclusive rest with
        | [] => [[character]]
        | line :: others => (character :: line) :: others

/-- A line without its line feed and the carriage return before it. -/
def stripLineEnd (line : List Char) : List Char :=
  if ['\r', '\n'].isSuffixOf line then line.take (line.length - 2)
  else if ['\n'].isSuffixOf line then line.take (line.length - 1)
  else line

def lines (text : List Char) : List (List Char) :=
  (splitInclusive text).map stripLineEnd

theorem splitInclusive_of_not_mem (absent : '\n' ∉ text) (shown : text ≠ []) :
    splitInclusive text = [text] := by
  induction text with
  | nil => exact absurd rfl shown
  | cons character rest induction =>
      have parts := List.ne_and_not_mem_of_not_mem_cons absent
      have other : ¬ character = '\n' := fun same => parts.1 same.symm
      rw [splitInclusive, if_neg other]
      cases rest with
      | nil => rfl
      | cons next others => rw [induction parts.2 (by simp)]

theorem lines_of_not_mem (absent : '\n' ∉ text) (shown : text ≠ []) : lines text = [text] := by
  have endsOtherwise : ∀ ending, '\n' ∈ ending → ¬ List.isSuffixOf ending text = true := by
    intro ending fed ends
    exact absent ((List.isSuffixOf_iff_suffix.mp ends).subset fed)
  rw [lines, splitInclusive_of_not_mem absent shown, List.map_singleton, stripLineEnd,
    if_neg (endsOtherwise _ (by simp)), if_neg (endsOtherwise _ (by simp))]

/-! ## Numbers -/

def toAsciiLowercase (text : List Char) : List Char :=
  text.map Char.toLower

/-- An unsigned 64-bit number: digits, a plus sign allowed before them. -/
def parseUnsigned (text : List Char) : Option Nat :=
  let digits := match text with
    | '+' :: rest => rest
    | other => other
  if digits ≠ [] ∧ digits.all isAsciiDigit ∧ Nat.ofDigitChars 10 digits 0 < 2 ^ 64 then
    some (Nat.ofDigitChars 10 digits 0)
  else none

theorem isAsciiDigit_of_mem_toDigits (member : character ∈ Nat.toDigits 10 number) :
    isAsciiDigit character = true := by
  have digit := Nat.isDigit_of_mem_toDigits (by decide) (by decide) member
  simp only [Char.isDigit, ge_iff_le, Bool.and_eq_true, decide_eq_true_eq,
    UInt32.le_iff_toNat_le] at digit
  simp only [isAsciiDigit, Bool.and_eq_true, decide_eq_true_eq]
  exact digit

theorem isWhitespace_of_isAsciiDigit (digit : isAsciiDigit character = true) :
    isWhitespace character = false := by
  simp only [isAsciiDigit, Bool.and_eq_true, decide_eq_true_eq] at digit
  simp [isWhitespace]
  omega

theorem trim_eq_self_of_ends (starts : ∀ character ∈ text.head?, isWhitespace character = false)
    (ends : ∀ character ∈ text.getLast?, isWhitespace character = false) : trim text = text := by
  have front : trimStart text = text := by
    cases text with
    | nil => rfl
    | cons first rest => exact List.dropWhile_cons_of_neg (by simpa using starts)
  rw [trim, front]
  apply List.rdropWhile_eq_self_iff.mpr
  intro shown
  simp [ends _ (List.getLast?_eq_getLast_of_ne_nil shown)]

theorem isWhitespace_of_mem_toDigits (member : character ∈ Nat.toDigits 10 number) :
    isWhitespace character = false :=
  isWhitespace_of_isAsciiDigit (isAsciiDigit_of_mem_toDigits member)

theorem trim_toDigits (number : Nat) : trim (Nat.toDigits 10 number) = Nat.toDigits 10 number :=
  trim_eq_self_of_ends
    (fun _ first => isWhitespace_of_mem_toDigits (List.mem_of_mem_head? first))
    (fun _ last => isWhitespace_of_mem_toDigits (List.mem_of_mem_getLast? last))

theorem parseUnsigned_toDigits (fits : number < 2 ^ 64) :
    parseUnsigned (Nat.toDigits 10 number) = some number := by
  have shown : Nat.toDigits 10 number ≠ [] := Nat.toDigits_ne_nil
  have digits : ∀ character ∈ Nat.toDigits 10 number, isAsciiDigit character = true :=
    fun character member => isAsciiDigit_of_mem_toDigits member
  have value : Nat.ofDigitChars 10 (Nat.toDigits 10 number) 0 = number :=
    Nat.ofDigitChars_ten_toDigits
  have unsigned : ∀ rest, Nat.toDigits 10 number ≠ '+' :: rest := by
    intro rest starts
    have plus := digits '+' (by simp [starts])
    exact absurd plus (by decide)
  unfold parseUnsigned
  split
  · next starts => exact absurd starts (unsigned _)
  · simp only [value]
    rw [if_pos ⟨shown, List.all_eq_true.mpr digits, fits⟩]

end Text
