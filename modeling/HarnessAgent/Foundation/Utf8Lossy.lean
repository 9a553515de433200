import HarnessAgent.Foundation.Utf8
import Mathlib.Data.List.Forall2

/-! # Lossy decoding

Bytes read as UTF-8 with U+FFFD in place of what is not. A text whose bytes are cut into
pieces keeps its characters when every piece is decoded by itself, except those that a
cut goes through: each of them becomes at least two replacement characters.
-/

namespace Text

/-! ## Decoding -/

def replacement : Char := '\uFFFD'

/-- The ranges of the bytes that may follow the first byte of a character. -/
def continuations (lead : Nat) : Option (List (Nat × Nat)) :=
  if lead < 0x80 then some []
  else if 0xC2 ≤ lead ∧ lead ≤ 0xDF then some [(0x80, 0xBF)]
  else if lead = 0xE0 then some [(0xA0, 0xBF), (0x80, 0xBF)]
  else if lead = 0xED then some [(0x80, 0x9F), (0x80, 0xBF)]
  else if 0xE1 ≤ lead ∧ lead ≤ 0xEF then some [(0x80, 0xBF), (0x80, 0xBF)]
  else if lead = 0xF0 then some [(0x90, 0xBF), (0x80, 0xBF), (0x80, 0xBF)]
  else if 0xF1 ≤ lead ∧ lead ≤ 0xF3 then some [(0x80, 0xBF), (0x80, 0xBF), (0x80, 0xBF)]
  else if lead = 0xF4 then some [(0x80, 0x8F), (0x80, 0xBF), (0x80, 0xBF)]
  else none

def InRange (range : Nat × Nat) (byte : UInt8) : Prop :=
  range.1 ≤ byte.toNat ∧ byte.toNat ≤ range.2

instance (range : Nat × Nat) (byte : UInt8) : Decidable (InRange range byte) :=
  inferInstanceAs (Decidable (_ ∧ _))

def follow : List (Nat × Nat) → List UInt8 → Nat
  | range :: ranges, byte :: rest => if InRange range byte then follow ranges rest + 1 else 0
  | _, _ => 0

def decodeCharacter : List UInt8 → Char
  | [first] => Char.ofNat first.toNat
  | [first, second] => Char.ofNat ((first.toNat - 0xC0) * 64 + (second.toNat - 0x80))
  | [first, second, third] =>
      Char.ofNat (((first.toNat - 0xE0) * 64 + (second.toNat - 0x80)) * 64 + (third.toNat - 0x80))
  | [first, second, third, fourth] =>
      Char.ofNat ((((first.toNat - 0xF0) * 64 + (second.toNat - 0x80)) * 64 +
        (third.toNat - 0x80)) * 64 + (fourth.toNat - 0x80))
  | _ => replacement

/-- The longest start of a character is replaced as one, any other byte by itself. -/
def fromUtf8Lossy : List UInt8 → List Char
  | [] => []
  | lead :: rest =>
      match continuations lead.toNat with
      | none => replacement :: fromUtf8Lossy rest
      | some ranges =>
          let taken := follow ranges rest
          let character :=
            if taken = ranges.length then decodeCharacter (lead :: rest.take taken)
            else replacement
          character :: fromUtf8Lossy (rest.drop taken)
termination_by bytes => bytes.length
decreasing_by all_goals simp only [List.length_cons, List.length_drop]; omega

def IsUtf8 (bytes : List UInt8) : Prop :=
  ∃ text, bytes = utf8 text

/-! ## One character -/

abbrev Continues : List (Nat × Nat) → List UInt8 → Prop :=
  List.Forall₂ InRange

theorem follow_append (continues : Continues ranges bytes) (rest : List UInt8) :
    follow ranges (bytes ++ rest) = bytes.length := by
  induction continues with
  | nil => cases rest <;> rfl
  | cons within later induction =>
      rw [List.cons_append, follow, if_pos within, induction]
      rfl

theorem follow_of_append (continues : Continues ranges (front ++ back)) :
    follow ranges front = front.length := by
  induction front generalizing ranges with
  | nil => cases ranges <;> rfl
  | cons byte front induction =>
      rcases continues with _ | ⟨within, later⟩
      rw [follow, if_pos within, induction later]
      rfl

structure Layout (character : Char) (lead : UInt8) (later : List UInt8)
    (ranges : List (Nat × Nat)) : Prop where
  bytes : String.utf8EncodeChar character = lead :: later
  leads : continuations lead.toNat = some ranges
  continues : Continues ranges later
  decoded : decodeCharacter (lead :: later) = character
  high : ∀ byte ∈ later, 0x80 ≤ byte.toNat ∧ byte.toNat ≤ 0xBF

variable {character : Char}

theorem ofNat_eq (same : code = character.toNat) : Char.ofNat code = character := by
  rw [same, Char.ofNat_toNat]

/-- The three shapes of what follows the first byte, as far as the ranges go. -/
theorem leads_two (low : 0xC2 ≤ lead) (high : lead ≤ 0xDF) :
    continuations lead = some [(0x80, 0xBF)] := by
  rw [continuations, if_neg (by omega), if_pos ⟨low, high⟩]

theorem leads_three (low : 0xE0 ≤ lead) (high : lead ≤ 0xEF) :
    continuations lead =
      some [(if lead = 0xE0 then 0xA0 else 0x80, if lead = 0xED then 0x9F else 0xBF),
        (0x80, 0xBF)] := by
  rw [continuations, if_neg (by omega), if_neg (by omega)]
  by_cases first : lead = 0xE0
  · rw [if_pos first, if_pos first, if_neg (by omega)]
  · rw [if_neg first, if_neg first]
    by_cases surrogates : lead = 0xED
    · rw [if_pos surrogates, if_pos surrogates]
    · rw [if_neg surrogates, if_neg surrogates, if_pos ⟨by omega, high⟩]

theorem leads_four (low : 0xF0 ≤ lead) (high : lead ≤ 0xF4) :
    continuations lead =
      some [(if lead = 0xF0 then 0x90 else 0x80, if lead = 0xF4 then 0x8F else 0xBF),
        (0x80, 0xBF), (0x80, 0xBF)] := by
  rw [continuations, if_neg (by omega), if_neg (by omega), if_neg (by omega), if_neg (by omega),
    if_neg (by omega)]
  by_cases first : lead = 0xF0
  · rw [if_pos first, if_pos first, if_neg (by omega)]
  · rw [if_neg first, if_neg first]
    by_cases last : lead = 0xF4
    · rw [if_neg (by omega), if_pos last, if_pos last]
    · rw [if_pos ⟨by omega, by omega⟩, if_neg last]

theorem exists_byte {value : Nat} (small : value < 256) :
    ∃ byte : UInt8, UInt8.ofNat value = byte ∧ byte.toNat = value :=
  ⟨UInt8.ofNat value, rfl, by rw [UInt8.toNat_ofNat']; omega⟩

theorem exists_layout_one (high : character.toNat ≤ 0x7F) :
    ∃ lead later ranges, Layout character lead later ranges := by
  have code : character.val.toNat = character.toNat := rfl
  obtain ⟨first, firstByte, firstValue⟩ := @exists_byte character.toNat (by omega)
  apply Exists.intro first
  apply Exists.intro []
  apply Exists.intro []
  constructor
  · rw [String.utf8EncodeChar]
    simp only [code]
    rw [if_pos high, firstByte]
  · rw [continuations, if_pos (by omega)]
  · exact .nil
  · exact ofNat_eq firstValue
  · intro byte member
    cases member

theorem exists_layout_two (low : 0x7F < character.toNat) (high : character.toNat ≤ 0x7FF) :
    ∃ lead later ranges, Layout character lead later ranges := by
  have code : character.val.toNat = character.toNat := rfl
  obtain ⟨first, firstByte, firstValue⟩ :=
    @exists_byte (character.toNat / 64 % 0x20 + 0xC0) (by omega)
  obtain ⟨second, secondByte, secondValue⟩ := @exists_byte (character.toNat % 0x40 + 0x80) (by omega)
  apply Exists.intro first
  apply Exists.intro [second]
  apply Exists.intro [(0x80, 0xBF)]
  constructor
  · rw [String.utf8EncodeChar]
    simp only [code]
    rw [if_neg (by omega), if_pos high, firstByte, secondByte]
  · exact leads_two (by omega) (by omega)
  · exact .cons ⟨by omega, by omega⟩ .nil
  · apply ofNat_eq
    omega
  · intro byte member
    rcases List.mem_singleton.mp member with rfl
    omega

theorem exists_layout_three (low : 0x7FF < character.toNat) (high : character.toNat ≤ 0xFFFF) :
    ∃ lead later ranges, Layout character lead later ranges := by
  have code : character.val.toNat = character.toNat := rfl
  have valid : character.toNat < 0xD800 ∨ 0xDFFF < character.toNat ∧ character.toNat < 0x110000 :=
    character.valid
  obtain ⟨first, firstByte, firstValue⟩ :=
    @exists_byte (character.toNat / 4096 % 0x10 + 0xE0) (by omega)
  obtain ⟨second, secondByte, secondValue⟩ :=
    @exists_byte (character.toNat / 64 % 0x40 + 0x80) (by omega)
  obtain ⟨third, thirdByte, thirdValue⟩ := @exists_byte (character.toNat % 0x40 + 0x80) (by omega)
  apply Exists.intro first
  apply Exists.intro [second, third]
  apply Exists.intro _
  constructor
  · rw [String.utf8EncodeChar]
    simp only [code]
    rw [if_neg (by omega), if_neg (by omega), if_pos high, firstByte, secondByte, thirdByte]
  · exact leads_three (by omega) (by omega)
  · apply List.Forall₂.cons
    · constructor
      · dsimp only
        split <;> omega
      · dsimp only
        split <;> omega
    · exact .cons ⟨by omega, by omega⟩ .nil
  · apply ofNat_eq
    omega
  · intro byte member
    rcases List.mem_pair.mp member with rfl | rfl <;> omega

theorem exists_layout_four (low : 0xFFFF < character.toNat) :
    ∃ lead later ranges, Layout character lead later ranges := by
  have code : character.val.toNat = character.toNat := rfl
  have valid : character.toNat < 0xD800 ∨ 0xDFFF < character.toNat ∧ character.toNat < 0x110000 :=
    character.valid
  obtain ⟨first, firstByte, firstValue⟩ :=
    @exists_byte (character.toNat / 262144 % 0x08 + 0xF0) (by omega)
  obtain ⟨second, secondByte, secondValue⟩ :=
    @exists_byte (character.toNat / 4096 % 0x40 + 0x80) (by omega)
  obtain ⟨third, thirdByte, thirdValue⟩ :=
    @exists_byte (character.toNat / 64 % 0x40 + 0x80) (by omega)
  obtain ⟨fourth, fourthByte, fourthValue⟩ := @exists_byte (character.toNat % 0x40 + 0x80) (by omega)
  apply Exists.intro first
  apply Exists.intro [second, third, fourth]
  apply Exists.intro _
  constructor
  · rw [String.utf8EncodeChar]
    simp only [code]
    rw [if_neg (by omega), if_neg (by omega), if_neg (by omega), firstByte, secondByte, thirdByte,
      fourthByte]
  · exact leads_four (by omega) (by omega)
  · apply List.Forall₂.cons
    · constructor
      · dsimp only
        split <;> omega
      · dsimp only
        split <;> omega
    · exact .cons ⟨by omega, by omega⟩ (.cons ⟨by omega, by omega⟩ .nil)
  · apply ofNat_eq
    omega
  · intro byte member
    rcases List.mem_cons.mp member with rfl | member
    · omega
    · rcases List.mem_pair.mp member with rfl | rfl <;> omega

theorem exists_layout (character : Char) :
    ∃ lead later ranges, Layout character lead later ranges := by
  by_cases one : character.toNat ≤ 0x7F
  · exact exists_layout_one one
  by_cases two : character.toNat ≤ 0x7FF
  · exact exists_layout_two (by omega) two
  by_cases three : character.toNat ≤ 0xFFFF
  · exact exists_layout_three (by omega) three
  · exact exists_layout_four (by omega)

/-! ## Whole and cut characters -/

theorem fromUtf8Lossy_character (character : Char) (rest : List UInt8) :
    fromUtf8Lossy (String.utf8EncodeChar character ++ rest) = character :: fromUtf8Lossy rest := by
  obtain ⟨lead, later, ranges, layout⟩ := exists_layout character
  have taken : follow ranges (later ++ rest) = later.length := follow_append layout.continues rest
  have whole : later.length = ranges.length := layout.continues.length_eq.symm
  rw [layout.bytes, List.cons_append, fromUtf8Lossy, layout.leads]
  dsimp only
  rw [taken, if_pos whole, List.take_left, List.drop_left, layout.decoded]

theorem fromUtf8Lossy_utf8_append (text : List Char) (rest : List UInt8) :
    fromUtf8Lossy (utf8 text ++ rest) = text ++ fromUtf8Lossy rest := by
  induction text with
  | nil => rfl
  | cons character text induction =>
      rw [utf8, List.flatMap_cons, List.append_assoc, fromUtf8Lossy_character, ← utf8, induction]
      rfl

@[simp] theorem fromUtf8Lossy_nil : fromUtf8Lossy [] = [] := by
  rw [fromUtf8Lossy]

@[simp] theorem fromUtf8Lossy_utf8 (text : List Char) : fromUtf8Lossy (utf8 text) = text := by
  have decoded := fromUtf8Lossy_utf8_append text []
  rwa [List.append_nil, fromUtf8Lossy_nil, List.append_nil] at decoded

theorem fromUtf8Lossy_start {character : Char} {front back : List UInt8}
    (cut : String.utf8EncodeChar character = front ++ back) (started : front ≠ [])
    (unfinished : back ≠ []) : fromUtf8Lossy front = [replacement] := by
  obtain ⟨lead, later, ranges, layout⟩ := exists_layout character
  cases front with
  | nil => exact absurd rfl started
  | cons first front =>
      rw [layout.bytes, List.cons_append, List.cons.injEq] at cut
      rcases cut with ⟨rfl, rfl⟩
      have taken : follow ranges front = front.length := follow_of_append layout.continues
      have missing : front.length ≠ ranges.length := by
        have whole := layout.continues.length_eq
        have more := List.length_pos_of_ne_nil unfinished
        rw [List.length_append] at whole
        omega
      rw [fromUtf8Lossy, layout.leads]
      dsimp only
      rw [taken, if_neg missing, List.drop_length, fromUtf8Lossy_nil]

theorem fromUtf8Lossy_within (within : ∀ byte ∈ bytes, 0x80 ≤ byte.toNat ∧ byte.toNat ≤ 0xBF)
    (rest : List UInt8) :
    fromUtf8Lossy (bytes ++ rest) =
      List.replicate bytes.length replacement ++ fromUtf8Lossy rest := by
  induction bytes with
  | nil => rfl
  | cons byte bytes induction =>
      have bounds := within byte List.mem_cons_self
      have alone : continuations byte.toNat = none := by
        rw [continuations, if_neg (by omega), if_neg (by omega), if_neg (by omega),
          if_neg (by omega), if_neg (by omega), if_neg (by omega), if_neg (by omega),
          if_neg (by omega)]
      have others := induction fun other member => within other (List.mem_cons_of_mem _ member)
      rw [List.cons_append, fromUtf8Lossy, alone]
      dsimp only
      rw [others]
      rfl

/-! ## Pieces -/

/-- A text after characters outside ASCII have been replaced by two or more replacement
characters each. -/
inductive Worn : List Char → List Char → Prop
  | nil : Worn [] []
  | kept (character : Char) {text worn : List Char} (later : Worn text worn) :
      Worn (character :: text) (character :: worn)
  | broken {character : Char} {count : Nat} {text worn : List Char}
      (wide : 0x80 ≤ character.toNat) (several : 2 ≤ count) (later : Worn text worn) :
      Worn (character :: text) (List.replicate count replacement ++ worn)

namespace Worn

theorem refl (text : List Char) : Worn text text := by
  induction text with
  | nil => exact .nil
  | cons character text induction => exact .kept character induction

theorem append (first : Worn left wornLeft) (second : Worn right wornRight) :
    Worn (left ++ right) (wornLeft ++ wornRight) := by
  induction first with
  | nil => exact second
  | kept character later induction => exact .kept character induction
  | broken wide several later induction =>
      rw [List.append_assoc]
      exact .broken wide several induction

theorem countP_le {text worn : List Char} {counted : Char → Bool}
    (wide : ∀ character, 0x80 ≤ character.toNat → counted character = true)
    (wear : Worn text worn) : text.countP counted ≤ worn.countP counted := by
  have marked : counted replacement = true := wide replacement (by decide)
  induction wear with
  | nil => exact Nat.le_refl _
  | kept character later induction =>
      rw [List.countP_cons, List.countP_cons]
      omega
  | broken high several later induction =>
      rw [List.countP_cons, if_pos (wide _ high), List.countP_append, List.countP_replicate,
        if_pos marked]
      omega

variable {text worn : List Char}

theorem eq_of_countP_le (wide : ∀ character, 0x80 ≤ character.toNat → counted character = true)
    (wear : Worn text worn) (few : worn.countP counted ≤ text.countP counted) : worn = text := by
  have marked : counted replacement = true := wide replacement (by decide)
  induction wear with
  | nil => rfl
  | kept character later induction =>
      rw [List.countP_cons, List.countP_cons] at few
      rw [induction (by omega)]
  | broken high several later induction =>
      have more := later.countP_le wide
      rw [List.countP_cons, if_pos (wide _ high), List.countP_append, List.countP_replicate,
        if_pos marked] at few
      omega

theorem exists_of_append (wear : Worn (left ++ right) worn) :
    ∃ wornLeft wornRight, worn = wornLeft ++ wornRight ∧ Worn left wornLeft ∧
      Worn right wornRight := by
  induction left generalizing worn with
  | nil => exact ⟨[], worn, rfl, .nil, wear⟩
  | cons character left induction =>
      cases wear with
      | kept character later =>
          obtain ⟨wornLeft, wornRight, rfl, first, second⟩ := induction later
          exact ⟨character :: wornLeft, wornRight, rfl, .kept character first, second⟩
      | broken wide several later =>
          obtain ⟨wornLeft, wornRight, rfl, first, second⟩ := induction later
          exact ⟨_, wornRight, (List.append_assoc _ _ _).symm, .broken wide several first, second⟩

theorem eq_of_ascii (wear : Worn text worn) (ascii : ∀ character ∈ text, character.toNat < 0x80) :
    worn = text := by
  induction wear with
  | nil => rfl
  | kept character later induction =>
      rw [induction fun other member => ascii other (List.mem_cons_of_mem _ member)]
  | broken wide several later induction =>
      exact absurd (ascii _ List.mem_cons_self) (Nat.not_lt.mpr wide)

theorem mem_or_eq (wear : Worn text worn) (member : character ∈ worn) :
    character ∈ text ∨ character = replacement := by
  induction wear with
  | nil => cases member
  | kept other later induction =>
      rcases List.mem_cons.mp member with rfl | member
      · exact .inl List.mem_cons_self
      · exact (induction member).imp_left (List.mem_cons_of_mem _)
  | broken wide several later induction =>
      rcases List.mem_append.mp member with replaced | member
      · exact .inr (List.eq_of_mem_replicate replaced)
      · exact (induction member).imp_left (List.mem_cons_of_mem _)

end Worn

theorem exists_of_utf8_eq_append (cut : utf8 text = front ++ back) :
    (∃ kept later, text = kept ++ later ∧ front = utf8 kept ∧ back = utf8 later) ∨
      ∃ kept character later start finish, text = kept ++ character :: later ∧
        front = utf8 kept ++ start ∧ String.utf8EncodeChar character = start ++ finish ∧
        start ≠ [] ∧ finish ≠ [] ∧ back = finish ++ utf8 later := by
  induction text generalizing front with
  | nil =>
      rcases List.append_eq_nil_iff.mp cut.symm with ⟨rfl, rfl⟩
      exact .inl ⟨[], [], rfl, rfl, rfl⟩
  | cons character text induction =>
      have bytes : utf8 (character :: text) = String.utf8EncodeChar character ++ utf8 text :=
        List.flatMap_cons
      rw [bytes] at cut
      rcases List.append_eq_append_iff.mp cut with ⟨more, rfl, inner⟩ | ⟨finish, whole, rfl⟩
      · rcases induction inner with ⟨kept, later, rfl, rfl, rfl⟩ |
          ⟨kept, other, later, start, finish, rfl, rfl, parts, started, unfinished, rfl⟩
        · exact .inl ⟨character :: kept, later, rfl, rfl, rfl⟩
        · exact .inr ⟨character :: kept, other, later, start, finish, rfl,
            (List.append_assoc _ _ _).symm, parts, started, unfinished, rfl⟩
      · cases finish with
        | nil =>
            rw [List.append_nil] at whole
            exact .inl ⟨[character], text, rfl, by simp [utf8, whole], rfl⟩
        | cons byte finish =>
            cases front with
            | nil => exact .inl ⟨[], character :: text, rfl, rfl, by rw [bytes, whole]; rfl⟩
            | cons first front =>
                exact .inr ⟨[], character, text, first :: front, byte :: finish, rfl, rfl, whole,
                  List.cons_ne_nil _ _, List.cons_ne_nil _ _, rfl⟩

theorem within_of_cut (parts : String.utf8EncodeChar character = start ++ finish)
    (started : start ≠ []) (unfinished : finish ≠ []) :
    (∀ byte ∈ finish, 0x80 ≤ byte.toNat ∧ byte.toNat ≤ 0xBF) ∧ 0x80 ≤ character.toNat := by
  obtain ⟨lead, later, ranges, layout⟩ := exists_layout character
  cases start with
  | nil => exact absurd rfl started
  | cons first start =>
      rw [layout.bytes, List.cons_append, List.cons.injEq] at parts
      rcases parts with ⟨-, rfl⟩
      constructor
      · intro byte member
        exact layout.high byte (List.mem_append_right start member)
      · apply Nat.le_of_not_lt
        intro ascii
        have size : (String.utf8EncodeChar character).length = 1 := by
          have code : character.val.toNat = character.toNat := rfl
          simp only [String.utf8EncodeChar, code]
          rw [if_pos (by omega)]
          rfl
        have more := List.length_pos_of_ne_nil unfinished
        rw [layout.bytes, List.length_cons, List.length_append] at size
        omega

theorem exists_worn_of_pieces (pieces : List (List UInt8)) :
    ∀ (owed : List UInt8) (text : List Char), pieces.flatten = owed ++ utf8 text →
      (∀ byte ∈ owed, 0x80 ≤ byte.toNat ∧ byte.toNat ≤ 0xBF) →
      ∃ worn, pieces.flatMap fromUtf8Lossy = List.replicate owed.length replacement ++ worn ∧
        Worn text worn ∧ (owed = [] → worn = text → ∀ piece ∈ pieces, IsUtf8 piece) := by
  induction pieces with
  | nil =>
      intro owed text together within
      rcases List.append_eq_nil_iff.mp together.symm with ⟨rfl, nothing⟩
      have empty : text = [] := by
        by_contra shown
        exact utf8_ne_nil shown nothing
      rw [empty]
      exact ⟨[], rfl, .nil, fun _ _ piece member => absurd member List.not_mem_nil⟩
  | cons piece pieces induction =>
      intro owed text together within
      rw [List.flatten_cons] at together
      rw [List.flatMap_cons]
      rcases List.append_eq_append_iff.mp together with ⟨more, rfl, rest⟩ | ⟨front, rfl, rest⟩
      · -- The piece ends inside the character it begins in.
        have inside := fromUtf8Lossy_within
          (fun byte member => within byte (List.mem_append_left more member)) []
        obtain ⟨worn, decoded, wear, valid⟩ := induction more text rest
          fun byte member => within byte (List.mem_append_right piece member)
        refine ⟨worn, ?_, wear, ?_⟩
        · rw [List.append_nil, fromUtf8Lossy_nil, List.append_nil] at inside
          rw [inside, decoded, List.length_append, ← List.replicate_append_replicate,
            List.append_assoc]
        · intro nothing same other member
          rcases List.append_eq_nil_iff.mp nothing with ⟨rfl, rfl⟩
          rcases List.mem_cons.mp member with rfl | member
          · exact ⟨[], rfl⟩
          · exact valid rfl same other member
      · have inside := fromUtf8Lossy_within within front
        rcases exists_of_utf8_eq_append rest with ⟨kept, later, rfl, rfl, others⟩ |
          ⟨kept, character, later, start, finish, rfl, rfl, parts, started, unfinished, others⟩
        · -- The piece ends between two characters.
          obtain ⟨worn, decoded, wear, valid⟩ := induction [] later others (by simp)
          refine ⟨kept ++ worn, ?_, (Worn.refl kept).append wear, ?_⟩
          · rw [inside, fromUtf8Lossy_utf8, decoded]
            simp
          · intro nothing same other member
            rcases List.mem_cons.mp member with rfl | member
            · exact ⟨kept, by rw [nothing]; rfl⟩
            · exact valid rfl (List.append_cancel_left same) other member
        · -- The piece ends inside a character.
          obtain ⟨bytes, wide⟩ := within_of_cut parts started unfinished
          obtain ⟨worn, decoded, wear, -⟩ := induction finish later others bytes
          have several : 2 ≤ finish.length + 1 :=
            Nat.succ_le_succ (List.length_pos_of_ne_nil unfinished)
          refine ⟨kept ++ (List.replicate (finish.length + 1) replacement ++ worn), ?_,
            (Worn.refl kept).append (.broken wide several wear), ?_⟩
          · rw [inside, fromUtf8Lossy_utf8_append, fromUtf8Lossy_start parts started unfinished,
              decoded, List.replicate_succ]
            simp
          · intro nothing same
            have longer := @Worn.countP_le later worn (fun _ => true) (fun _ _ => rfl) wear
            have lengths := congrArg List.length (List.append_cancel_left same)
            rw [List.length_append, List.length_replicate, List.length_cons] at lengths
            simp only [List.countP_true] at longer
            omega

theorem exists_worn (pieces : List (List UInt8)) (together : pieces.flatten = utf8 text) :
    Worn text (pieces.flatMap fromUtf8Lossy) ∧
      (pieces.flatMap fromUtf8Lossy = text ↔ ∀ piece ∈ pieces, IsUtf8 piece) := by
  obtain ⟨worn, decoded, wear, valid⟩ := exists_worn_of_pieces pieces [] text together (by simp)
  rw [List.length_nil, List.replicate_zero, List.nil_append] at decoded
  rw [decoded]
  constructor
  · exact wear
  · constructor
    · exact valid rfl
    · intro whole
      have encoded : utf8 (pieces.flatMap fromUtf8Lossy) = pieces.flatten := by
        clear together decoded wear valid
        induction pieces with
        | nil => rfl
        | cons piece pieces induction =>
            obtain ⟨own, rfl⟩ := whole piece List.mem_cons_self
            rw [List.flatMap_cons, fromUtf8Lossy_utf8, utf8_append, List.flatten_cons,
              induction fun other member => whole other (List.mem_cons_of_mem _ member)]
      rw [decoded, together] at encoded
      have read := congrArg fromUtf8Lossy encoded
      rwa [fromUtf8Lossy_utf8, fromUtf8Lossy_utf8] at read

end Text
