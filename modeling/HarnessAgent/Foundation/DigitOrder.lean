import HarnessAgent.Foundation.Text
import Mathlib.Algebra.Order.Field.Rat
import Mathlib.Data.List.Lex
import Mathlib.Tactic.FieldSimp
import Mathlib.Tactic.Linarith

/-! # The order of texts with numbers

Texts that have their digits at the same places are ordered like the numbers that their
digits form. Where one of them ends first, and what ends it comes after all other
characters, the longer one comes before it, although its number may be larger.
-/

namespace DigitOrder

def digitValue (character : Char) : Option Nat :=
  if Text.isAsciiDigit character then some (character.toNat - 0x30) else none

def decimal : List Char → ℚ
  | [] => 0
  | character :: rest =>
      match digitValue character with
      | some value => (value + decimal rest) / 10
      | none => decimal rest

def Nonzero (text : List Char) : Prop :=
  ∃ character ∈ text, ∃ value, digitValue character = some (value + 1)

variable {character : Char}

theorem digitValue_le (read : digitValue character = some value) : value ≤ 9 := by
  rw [digitValue] at read
  split at read
  · next digit =>
      rw [Text.isAsciiDigit, Bool.and_eq_true, decide_eq_true_eq, decide_eq_true_eq] at digit
      cases read
      omega
  · cases read

variable (text : List Char)

theorem decimal_nonneg : 0 ≤ decimal text := by
  induction text with
  | nil => exact le_refl _
  | cons character rest induction =>
      rw [decimal]
      cases digitValue character with
      | none => exact induction
      | some value =>
          have nonneg : (0 : ℚ) ≤ value := Nat.cast_nonneg value
          dsimp only
          linarith

theorem decimal_lt_one : decimal text < 1 := by
  induction text with
  | nil => exact zero_lt_one
  | cons character rest induction =>
      rw [decimal]
      cases read : digitValue character with
      | none => exact induction
      | some value =>
          have le_nine : (value : ℚ) ≤ 9 := by exact_mod_cast digitValue_le read
          dsimp only
          linarith

theorem nonzero_cons {rest : List Char} :
    Nonzero (character :: rest) ↔
      (∃ value, digitValue character = some (value + 1)) ∨ Nonzero rest := by
  rw [Nonzero, List.exists_mem_cons_iff]
  rfl

theorem decimal_pos_iff : 0 < decimal text ↔ Nonzero text := by
  induction text with
  | nil => simp [decimal, Nonzero]
  | cons character rest induction =>
      rw [decimal, nonzero_cons, ← induction]
      cases digitValue character with
      | none => simp
      | some value =>
          have nonneg := decimal_nonneg rest
          cases value with
          | zero =>
              dsimp only
              rw [Nat.cast_zero, zero_add]
              constructor
              · intro positive
                exact .inr (by linarith)
              · intro either
                rcases either with ⟨value, wrong⟩ | positive
                · cases wrong
                · linarith
          | succ value =>
              have shown : (0 : ℚ) ≤ value := Nat.cast_nonneg value
              dsimp only
              rw [Nat.cast_add, Nat.cast_one]
              refine iff_of_true ?_ (.inl ⟨value, rfl⟩)
              linarith

variable {least most : Nat} {left right : Char}

theorem lt_of_digitValue (leftDigit : digitValue left = some least)
    (rightDigit : digitValue right = some most) (less : least < most) : left < right := by
  rw [digitValue] at leftDigit rightDigit
  split at leftDigit
  · split at rightDigit
    · cases leftDigit
      cases rightDigit
      apply UInt32.lt_iff_toNat_lt.mpr
      change left.toNat < right.toNat
      omega
    · cases rightDigit
  · cases leftDigit

inductive Aligned (stop : Char) : List Char → List Char → Prop
  | ends {long : List Char} (below : ∀ character ∈ long, character < stop) : Aligned stop [] long
  | ended {long : List Char} (below : ∀ character ∈ long, character < stop) : Aligned stop long []
  | same (character : Char) {first second : List Char} (aligned : Aligned stop first second) :
      Aligned stop (character :: first) (character :: second)
  | differs {left right : Char} {least most : Nat} (first second : List Char)
      (leftDigit : digitValue left = some least) (rightDigit : digitValue right = some most)
      (different : least ≠ most) : Aligned stop (left :: first) (right :: second)

/-- The texts, each with the character that stops it, are ordered as their numbers. -/
def Agrees (stop : Char) (first second : List Char) : Prop :=
  (decimal first < decimal second → first ++ [stop] < second ++ [stop]) ∧
    (decimal second < decimal first → second ++ [stop] < first ++ [stop])

/-- The longer text is the shorter one with a part of a number after it. -/
def SpellsOut (short long : List Char) : Prop :=
  ∃ rest, long = short ++ rest ∧ Nonzero rest

variable {first second : List Char} {stop : Char}

theorem Agrees.symm (agrees : Agrees stop first second) : Agrees stop second first :=
  ⟨agrees.2, agrees.1⟩

theorem agrees_nil_iff (below : ∀ character ∈ long, character < stop) :
    Agrees stop [] long ↔ ¬SpellsOut [] long ∧ ¬SpellsOut long [] := by
  have spells : SpellsOut [] long ↔ 0 < decimal long := by
    rw [decimal_pos_iff, SpellsOut]
    constructor
    · intro found
      rcases found with ⟨rest, rfl, nonzero⟩
      exact nonzero
    · intro nonzero
      exact ⟨long, rfl, nonzero⟩
  have short : ¬SpellsOut long [] := by
    intro found
    rcases found with ⟨rest, empty, nonzero⟩
    rw [(List.append_eq_nil_iff.mp empty.symm).2] at nonzero
    rcases nonzero with ⟨character, member, -⟩
    cases member
  rw [spells, and_iff_left short]
  constructor
  · intro agrees positive
    cases long with
    | nil => exact absurd positive (lt_irrefl _)
    | cons character rest =>
        have first := below character List.mem_cons_self
        rcases List.cons_lt_cons_iff.mp (agrees.1 positive) with less | same
        · exact absurd (Char.lt_trans less first) (Char.lt_irrefl _)
        · exact absurd first (same.1 ▸ Char.lt_irrefl _)
  · intro zero
    constructor
    · intro positive
      exact absurd positive zero
    · intro negative
      exact absurd negative (not_lt.mpr (decimal_nonneg long))

theorem decimal_cons_lt :
    decimal (character :: first) < decimal (character :: second) ↔
      decimal first < decimal second := by
  rw [decimal, decimal]
  cases digitValue character with
  | none => rfl
  | some value =>
      dsimp only
      constructor
      · intro less
        linarith
      · intro less
        linarith

theorem agrees_cons :
    Agrees stop (character :: first) (character :: second) ↔ Agrees stop first second := by
  rw [Agrees, Agrees, decimal_cons_lt, decimal_cons_lt, List.cons_append, List.cons_append,
    List.cons_lt_cons_self, List.cons_lt_cons_self]

theorem spellsOut_cons {short long : List Char} :
    SpellsOut (character :: short) (character :: long) ↔ SpellsOut short long := by
  simp only [SpellsOut, List.cons_append, List.cons.injEq, true_and]

theorem agrees_of_digits (leftDigit : digitValue left = some least)
    (rightDigit : digitValue right = some most) (less : least < most) (first second : List Char) :
    Agrees stop (left :: first) (right :: second) := by
  have below := decimal_lt_one first
  have above := decimal_nonneg second
  have values : (least : ℚ) + 1 ≤ most := by exact_mod_cast less
  have number : decimal (left :: first) < decimal (right :: second) := by
    rw [decimal, decimal, leftDigit, rightDigit]
    dsimp only
    linarith
  constructor
  · intro _
    exact List.cons_lt_cons_iff.mpr (.inl (lt_of_digitValue leftDigit rightDigit less))
  · intro other
    exact absurd (other.trans number) (lt_irrefl _)

theorem not_spellsOut_of_ne (different : left ≠ right) (first second : List Char) :
    ¬SpellsOut (left :: first) (right :: second) := by
  intro found
  rcases found with ⟨rest, same, -⟩
  rw [List.cons_append, List.cons.injEq] at same
  exact different same.1.symm

/-- Aligned texts are ordered as their numbers, unless one spells out more than the other. -/
theorem Aligned.agrees_iff (aligned : Aligned stop first second) :
    Agrees stop first second ↔ ¬SpellsOut first second ∧ ¬SpellsOut second first := by
  induction aligned with
  | ends below => exact agrees_nil_iff below
  | ended below =>
      rw [and_comm, ← agrees_nil_iff below]
      exact ⟨Agrees.symm, Agrees.symm⟩
  | same character aligned induction =>
      rw [agrees_cons, spellsOut_cons, spellsOut_cons, induction]
  | @differs left right least most first second leftDigit rightDigit different =>
      have apart : left ≠ right := by
        intro same
        rw [same, rightDigit] at leftDigit
        cases leftDigit
        exact different rfl
      refine iff_of_true ?_ ⟨not_spellsOut_of_ne apart _ _, not_spellsOut_of_ne apart.symm _ _⟩
      rcases Nat.lt_or_gt_of_ne different with less | more
      · exact agrees_of_digits leftDigit rightDigit less first second
      · exact (agrees_of_digits rightDigit leftDigit more second first).symm

def Digits (text : List Char) : Prop :=
  ∀ character ∈ text, ∃ value, digitValue character = some value

def digit (value : Nat) : Char := Char.ofNat (0x30 + value)

/-- The number that the digits after a point stand for. -/
def fraction : List Nat → ℚ
  | [] => 0
  | value :: rest => (value + fraction rest) / 10

def padded : Nat → Nat → List Char
  | 0, _ => []
  | width + 1, number => padded width (number / 10) ++ [digit (number % 10)]

theorem digitValue_digit (small : value < 10) : digitValue (digit value) = some value := by
  revert value
  decide

theorem digitValue_injective (leftDigit : digitValue left = some value)
    (rightDigit : digitValue right = some value) : left = right := by
  rw [digitValue] at leftDigit rightDigit
  split at leftDigit
  · next leftShown =>
      split at rightDigit
      · next rightShown =>
          rw [Text.isAsciiDigit, Bool.and_eq_true, decide_eq_true_eq, decide_eq_true_eq]
            at leftShown rightShown
          cases leftDigit
          have same : right.toNat - 0x30 = left.toNat - 0x30 := Option.some.inj rightDigit
          apply Char.toNat_inj.mp
          omega
      · cases rightDigit
  · cases leftDigit

theorem digits_padded (width number : Nat) : Digits (padded width number) := by
  induction width generalizing number with
  | zero =>
      intro character member
      cases member
  | succ width induction =>
      intro character member
      rcases List.mem_append.mp member with front | last
      · exact induction _ character front
      · rw [List.mem_singleton.mp last]
        exact ⟨_, digitValue_digit (Nat.mod_lt _ (by decide))⟩

theorem length_padded (width number : Nat) : (padded width number).length = width := by
  induction width generalizing number with
  | zero => rfl
  | succ width induction => rw [padded, List.length_append, induction, List.length_singleton]

theorem decimal_padded (fits : number < 10 ^ width) (rest : List Char) :
    decimal (padded width number ++ rest) = (number + decimal rest) / 10 ^ width := by
  induction width generalizing number rest with
  | zero =>
      rw [Nat.lt_one_iff.mp fits, padded, List.nil_append, Nat.cast_zero, zero_add, pow_zero,
        div_one]
  | succ width induction =>
      have smaller : number / 10 < 10 ^ width := by
        rw [pow_succ] at fits
        exact Nat.div_lt_of_lt_mul (by rwa [Nat.mul_comm])
      have parts : (10 : ℚ) * (number / 10 : ℕ) + (number % 10 : ℕ) = number := by
        exact_mod_cast Nat.div_add_mod number 10
      have last : decimal (digit (number % 10) :: rest) =
          ((number % 10 : ℕ) + decimal rest) / 10 := by
        rw [decimal, digitValue_digit (Nat.mod_lt _ (by decide))]
      rw [padded, List.append_assoc, List.singleton_append, induction smaller, last, ← parts,
        pow_succ]
      have shown : (10 : ℚ) ^ width ≠ 0 := pow_ne_zero _ (by norm_num)
      field_simp
      linarith

theorem Aligned.digit (leftDigit : digitValue left = some least)
    (rightDigit : digitValue right = some most)
    (onward : left = right → Aligned stop first second) :
    Aligned stop (left :: first) (right :: second) := by
  by_cases same : least = most
  · rw [same] at leftDigit
    have one := digitValue_injective leftDigit rightDigit
    rw [← one]
    exact .same left (onward one)
  · exact .differs _ _ leftDigit rightDigit same

theorem Digits.tail (digits : Digits (character :: rest)) : Digits rest :=
  fun own member => digits own (List.mem_cons_of_mem _ member)

theorem Aligned.append {left right : List Char} (leftDigits : Digits left)
    (rightDigits : Digits right) (length : left.length = right.length)
    (onward : left = right → Aligned stop first second) :
    Aligned stop (left ++ first) (right ++ second) := by
  induction left generalizing right with
  | nil =>
      rw [List.eq_nil_of_length_eq_zero length.symm] at onward ⊢
      exact onward rfl
  | cons character left induction =>
      cases right with
      | nil => cases length
      | cons other right =>
          rcases leftDigits character List.mem_cons_self with ⟨least, leftDigit⟩
          rcases rightDigits other List.mem_cons_self with ⟨most, rightDigit⟩
          apply Aligned.digit leftDigit rightDigit
          intro one
          apply induction leftDigits.tail rightDigits.tail (Nat.succ.inj length)
          intro rest
          exact onward (by rw [one, rest])

theorem digits_map {values : List Nat} (small : ∀ value ∈ values, value < 10) :
    Digits (values.map digit) := by
  intro character member
  rcases List.mem_map.mp member with ⟨value, own, rfl⟩
  exact ⟨value, digitValue_digit (small value own)⟩

theorem decimal_map (small : ∀ value ∈ values, value < 10) :
    decimal (values.map digit) = fraction values := by
  induction values with
  | nil => rfl
  | cons value values induction =>
      have rest := induction (fun own member => small own (List.mem_cons_of_mem _ member))
      rw [List.map_cons, decimal, digitValue_digit (small value List.mem_cons_self), fraction,
        rest]

theorem Digits.below {text : List Char} (digits : Digits text) (after : '9' < stop) :
    ∀ character ∈ text, character < stop := by
  intro character member
  rcases digits character member with ⟨value, read⟩
  rw [digitValue] at read
  split at read
  · next shown =>
      rw [Text.isAsciiDigit, Bool.and_eq_true, decide_eq_true_eq, decide_eq_true_eq] at shown
      have last : '9'.toNat < stop.toNat := UInt32.lt_iff_toNat_lt.mp after
      have nine : '9'.toNat = 57 := rfl
      apply UInt32.lt_iff_toNat_lt.mpr
      change character.toNat < stop.toNat
      omega
  · cases read

theorem Digits.aligned (firstDigits : Digits first) (secondDigits : Digits second)
    (after : '9' < stop) : Aligned stop first second := by
  induction first generalizing second with
  | nil => exact .ends (secondDigits.below after)
  | cons left first induction =>
      cases second with
      | nil => exact .ended (firstDigits.below after)
      | cons right second =>
          rcases firstDigits left List.mem_cons_self with ⟨least, leftDigit⟩
          rcases secondDigits right List.mem_cons_self with ⟨most, rightDigit⟩
          apply Aligned.digit leftDigit rightDigit
          intro _
          exact induction firstDigits.tail secondDigits.tail

theorem append_lt_append_iff {left right : List Char} (length : left.length = right.length) :
    left ++ first < right ++ second ↔ left < right ∨ left = right ∧ first < second := by
  induction left generalizing right with
  | nil =>
      rw [List.eq_nil_of_length_eq_zero length.symm]
      simp
  | cons character left induction =>
      cases right with
      | nil => cases length
      | cons other right =>
          rw [List.cons_append, List.cons_append, List.cons_lt_cons_iff, List.cons_lt_cons_iff,
            induction (Nat.succ.inj length), List.cons.injEq]
          constructor
          · intro cases
            rcases cases with less | ⟨same, less | ⟨rest, less⟩⟩
            · exact .inl (.inl less)
            · exact .inl (.inr ⟨same, less⟩)
            · exact .inr ⟨⟨same, rest⟩, less⟩
          · intro cases
            rcases cases with (less | ⟨same, less⟩) | ⟨⟨same, rest⟩, less⟩
            · exact .inl less
            · exact .inr ⟨same, .inl less⟩
            · exact .inr ⟨same, .inr ⟨rest, less⟩⟩

theorem padded_lt (fits : most < 10 ^ width) (less : least < most) :
    padded width least < padded width most := by
  induction width generalizing least most with
  | zero =>
      rw [pow_zero] at fits
      omega
  | succ width induction =>
      have smaller : most / 10 < 10 ^ width := by
        rw [pow_succ] at fits
        omega
      have length : (padded width (least / 10)).length = (padded width (most / 10)).length := by
        rw [length_padded, length_padded]
      rw [padded, padded, append_lt_append_iff length]
      by_cases front : least / 10 < most / 10
      · exact .inl (induction smaller front)
      · have same : least / 10 = most / 10 := by omega
        have last : least % 10 < most % 10 := by omega
        refine .inr ⟨by rw [same], List.cons_lt_cons_iff.mpr (.inl ?_)⟩
        exact lt_of_digitValue (digitValue_digit (Nat.mod_lt _ (by decide)))
          (digitValue_digit (Nat.mod_lt _ (by decide))) last

/-- A field decides the order of texts, unless it is the same in both. -/
theorem padded_append_lt (fits : most < 10 ^ width) (less : least < most) (first second : List Char) :
    padded width least ++ first < padded width most ++ second := by
  apply (append_lt_append_iff (by rw [length_padded, length_padded])).mpr
  exact .inl (padded_lt fits less)

theorem append_lt_append_left (less : first < second) (front : List Char) :
    front ++ first < front ++ second :=
  (append_lt_append_iff rfl).mpr (.inr ⟨rfl, less⟩)

end DigitOrder
