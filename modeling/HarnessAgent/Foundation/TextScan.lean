import HarnessAgent.Foundation.LeftmostReading
import HarnessAgent.Foundation.Matcher
import Mathlib.Algebra.Ring.Nat

/-! # Visible characters and single-pass replacement

A pass over a text replaces the occurrences of a pattern from left to right, and
goes on after each of them. Replacing can panic, which leaves no text at all.
-/

namespace Text

/-! ## Visible characters -/

def visible (text : List Char) : List Char :=
  text.filter fun character => !isWhitespace character

theorem visible_append (left right : List Char) :
    visible (left ++ right) = visible left ++ visible right :=
  List.filter_append left right

theorem visible_eq_nil {text : List Char} : visible text = [] ↔ Blank text := by
  rw [visible, List.filter_eq_nil_iff, Blank]
  simp

variable {character : Char}

theorem visible_cons (shown : isWhitespace character = false) (rest : List Char) :
    visible (character :: rest) = character :: visible rest := by
  simp [visible, shown]

@[simp] theorem visible_trim (text : List Char) : visible (trim text) = visible text := by
  rcases exists_trim text with ⟨before, after, blankBefore, blankAfter, split⟩
  have parts := congrArg visible split
  rw [visible_append, visible_append, visible_eq_nil.mpr blankBefore,
    visible_eq_nil.mpr blankAfter, List.nil_append, List.append_nil] at parts
  exact parts.symm

theorem isWhitespace_of_mem_visible (member : character ∈ visible text) :
    isWhitespace character = false := by
  simpa using (List.mem_filter.mp member).2

theorem length_trim_le (text : List Char) : (trim text).length ≤ text.length := by
  rcases exists_trim text with ⟨before, after, -, -, split⟩
  have lengths := congrArg List.length split
  rw [List.length_append, List.length_append] at lengths
  omega

def Solid (text : List Char) : Prop :=
  ∀ before space after, text = before ++ space :: after → isWhitespace space = true →
    Blank before ∨ Blank after

variable {part : List Char}

theorem Solid.of_infix (solid : Solid text) (inside : part <:+: text) : Solid part := by
  rcases inside with ⟨left, right, rfl⟩
  intro before space after split isSpace
  have whole : left ++ part ++ right = (left ++ before) ++ space :: (after ++ right) := by
    rw [split]
    simp
  rcases solid _ _ _ whole isSpace with blank | blank
  · exact .inl fun character member => blank character (List.mem_append_right _ member)
  · exact .inr fun character member => blank character (List.mem_append_left _ member)

theorem Solid.trim_eq (solid : Solid text) : trim text = visible text := by
  have inside : trim text <:+: text := by
    rcases exists_trim text with ⟨before, after, -, -, split⟩
    exact ⟨before, after, split.symm⟩
  have shown : ∀ character ∈ trim text, isWhitespace character = false := by
    intro character member
    by_contra hidden
    have space : isWhitespace character = true := by simpa using hidden
    rcases List.append_of_mem member with ⟨before, after, split⟩
    have lengths : (trim text).length = before.length + after.length + 1 := by
      rw [split, List.length_append, List.length_cons]
      omega
    rcases solid.of_infix inside before character after split space with blank | blank
    · have blankBefore : Blank (before ++ [character]) := by
        intro other member
        rcases List.mem_append.mp member with member | member
        · exact blank other member
        · cases List.mem_singleton.mp member
          exact space
      have trimmed : trim text = trim after := by
        rw [← trim_trim text, split, List.append_cons, trim_of_blank_append blankBefore]
      have shorter := length_trim_le after
      rw [← trimmed] at shorter
      omega
    · have blankAfter : Blank (character :: after) := by
        intro other member
        rcases List.mem_cons.mp member with rfl | member
        · exact space
        · exact blank other member
      have trimmed : trim text = trim before := by
        rw [← trim_trim text, split, trim_append_of_blank blankAfter]
      have shorter := length_trim_le before
      rw [← trimmed] at shorter
      omega
  rw [← visible_trim, visible, List.filter_eq_self.mpr]
  intro character member
  rw [shown character member]
  rfl

theorem trimStart_append_of_not_blank {left right : List Char} (shown : ¬Blank left) :
    trimStart (left ++ right) = trimStart left ++ right := by
  rw [trimStart, List.dropWhile_append, if_neg]
  · rfl
  · intro empty
    exact shown (List.dropWhile_eq_nil_iff.mp (List.isEmpty_iff.mp empty))

theorem trimEnd_append_of_not_blank {left : List Char} (shown : ¬Blank right) :
    trimEnd (left ++ right) = left ++ trimEnd right := by
  have reversed : ¬Blank right.reverse := by
    intro blank
    exact shown fun character member => blank character (List.mem_reverse.mpr member)
  have dropped := @trimStart_append_of_not_blank right.reverse left.reverse reversed
  rw [trimStart, trimStart] at dropped
  rw [trimEnd, List.reverse_append, dropped, List.reverse_append, List.reverse_reverse, trimEnd]

theorem solid_of_trim_eq (trimmed : trim text = visible text) : Solid text := by
  intro before space after split isSpace
  by_contra shown
  rcases not_or.mp shown with ⟨shownBefore, shownAfter⟩
  have shownEnd : ¬Blank (space :: after) := by
    intro blank
    exact shownAfter fun character member => blank character (List.mem_cons_of_mem _ member)
  have kept : space ∈ trim text := by
    rw [split, trim, trimStart_append_of_not_blank shownBefore,
      trimEnd_append_of_not_blank shownEnd, ← List.singleton_append,
      trimEnd_append_of_not_blank shownAfter]
    simp
  rw [trimmed] at kept
  rw [isWhitespace_of_mem_visible kept] at isSpace
  cases isSpace

/-! ## Bytes -/

def byteLength (text : List Char) : Nat :=
  (text.map Char.utf8Size).sum

/-- The first bytes of a text, unless they end inside a character. -/
def takeBytes : Nat → List Char → Option (List Char)
  | 0, _ => some []
  | _ + 1, [] => none
  | bytes + 1, character :: rest =>
      if character.utf8Size ≤ bytes + 1 then
        (takeBytes (bytes + 1 - character.utf8Size) rest).map (character :: ·)
      else none

theorem byteLength_append (left right : List Char) :
    byteLength (left ++ right) = byteLength left + byteLength right := by
  rw [byteLength, List.map_append, List.sum_append]
  rfl

theorem byteLength_cons (character : Char) (rest : List Char) :
    byteLength (character :: rest) = character.utf8Size + byteLength rest := by
  rw [byteLength, List.map_cons, List.sum_cons]
  rfl

theorem length_le_byteLength (text : List Char) : text.length ≤ byteLength text := by
  induction text with
  | nil => exact Nat.zero_le _
  | cons character rest induction =>
      have one := character.utf8Size_pos
      rw [List.length_cons, byteLength_cons]
      omega

theorem takeBytes_append (text rest : List Char) :
    takeBytes (byteLength text) (text ++ rest) = some text := by
  induction text with
  | nil =>
      rw [byteLength, List.map_nil, List.sum_nil, takeBytes]
  | cons character text induction =>
      rcases Nat.exists_eq_add_of_lt character.utf8Size_pos with ⟨more, size⟩
      have whole : character.utf8Size + byteLength text - character.utf8Size = byteLength text :=
        Nat.add_sub_cancel_left _ _
      rw [byteLength_cons, List.cons_append]
      rw [show character.utf8Size + byteLength text = more + byteLength text + 1 by omega] at whole ⊢
      rw [takeBytes, if_pos (by omega), whole, induction]
      rfl

theorem exists_append_of_takeBytes (taken : takeBytes bytes text = some start) :
    ∃ rest, text = start ++ rest := by
  induction text generalizing bytes start with
  | nil =>
      cases bytes with
      | zero =>
          cases taken
          exact ⟨[], rfl⟩
      | succ bytes => cases taken
  | cons character text induction =>
      cases bytes with
      | zero =>
          cases taken
          exact ⟨_, rfl⟩
      | succ bytes =>
          rw [takeBytes] at taken
          split at taken
          · rcases Option.map_eq_some_iff.mp taken with ⟨later, laterTaken, rfl⟩
            rcases induction laterTaken with ⟨rest, rfl⟩
            exact ⟨rest, rfl⟩
          · cases taken

theorem utf8Size_toLower (character : Char) : character.toLower.utf8Size = character.utf8Size := by
  by_cases upper : 'A'.val ≤ character.val ∧ character.val ≤ 'Z'.val
  · have low : 65 ≤ character.val.toNat := UInt32.le_iff_toNat_le.mp upper.1
    have high : character.val.toNat ≤ 90 := UInt32.le_iff_toNat_le.mp upper.2
    have lower : character.toLower.val = character.val + ('a'.val - 'A'.val) :=
      congrArg Char.val (dif_pos upper)
    have code : character.toLower.val.toNat = character.val.toNat + 32 := by
      rw [lower, UInt32.toNat_add]
      change (character.val.toNat + 32) % 4294967296 = _
      omega
    have small : ∀ letter : Char, letter.val.toNat ≤ 127 → letter.utf8Size = 1 := by
      intro letter below
      exact if_pos (UInt32.le_iff_toNat_le.mpr below)
    rw [small _ (by omega), small _ (by omega)]
  · have kept : character.toLower = character := dif_neg upper
    rw [kept]

theorem byteLength_map_toLower (text : List Char) :
    byteLength (text.map Char.toLower) = byteLength text := by
  rw [byteLength, List.map_map, byteLength]
  exact congrArg List.sum (List.map_congr_left fun character _ => utf8Size_toLower character)

def Straddles (bytes : Nat) (text : List Char) : Prop :=
  ∃ before character after, text = before ++ character :: after ∧
    byteLength before < bytes ∧ bytes < byteLength before + character.utf8Size

theorem straddles_cons {bytes : Nat} {rest : List Char} :
    Straddles bytes (character :: rest) ↔
      (0 < bytes ∧ bytes < character.utf8Size) ∨
        (character.utf8Size ≤ bytes ∧ Straddles (bytes - character.utf8Size) rest) := by
  constructor
  · rintro ⟨before, inside, after, split, below, above⟩
    cases before with
    | nil =>
        rw [List.nil_append] at split
        cases split
        exact .inl ⟨below, by simpa [byteLength] using above⟩
    | cons first before =>
        rw [List.cons_append] at split
        cases split
        rw [byteLength_cons] at below above
        exact .inr ⟨by omega, before, inside, after, rfl, by omega, by omega⟩
  · rintro (⟨below, above⟩ | ⟨whole, before, inside, after, rfl, below, above⟩)
    · exact ⟨[], character, rest, rfl, below, by simpa [byteLength] using above⟩
    · refine ⟨character :: before, inside, after, rfl, ?_, ?_⟩
      · rw [byteLength_cons]
        omega
      · rw [byteLength_cons]
        omega

theorem takeBytes_eq_none_iff (enough : bytes ≤ byteLength text) :
    takeBytes bytes text = none ↔ Straddles bytes text := by
  induction text generalizing bytes with
  | nil =>
      have none : bytes = 0 := Nat.le_zero.mp enough
      subst none
      refine iff_of_false (by simp [takeBytes]) ?_
      rintro ⟨before, character, after, split, _, _⟩
      exact absurd split.symm (List.append_ne_nil_of_right_ne_nil _ (List.cons_ne_nil _ _))
  | cons character rest induction =>
      have size := character.utf8Size_pos
      rw [straddles_cons]
      cases bytes with
      | zero =>
          refine iff_of_false (by simp [takeBytes]) ?_
          rintro (inside | ⟨whole, _⟩)
          · omega
          · omega
      | succ bytes =>
          rw [byteLength_cons] at enough
          rw [takeBytes]
          split
          · next whole =>
              rw [Option.map_eq_none_iff, induction (by omega)]
              constructor
              · exact fun straddles => .inr ⟨whole, straddles⟩
              · rintro (inside | ⟨_, straddles⟩)
                · omega
                · exact straddles
          · next short => exact iff_of_true rfl (.inl ⟨Nat.succ_pos _, by omega⟩)

/-! ## Occurrences -/

/-- What a pattern finds in a text from left to right, where no two occurrences overlap:
characters of an occurrence still to be skipped, and the rest of the text. -/
def occurrences {α : Type} (find : List Char → Option (α × List Char)) :
    Nat → List Char → List α
  | _, [] => []
  | skip + 1, _ :: rest => occurrences find skip rest
  | 0, character :: rest =>
      match find (character :: rest) with
      | none => occurrences find 0 rest
      | some (value, remaining) =>
          value :: occurrences find (rest.length - remaining.length) rest

/-! ## Replacement -/

section Replacement

/-- The pass: characters of an occurrence still to be skipped, and the rest of the
text. An occurrence at the start of a text is found with what replaces it, unless
that panics, and with the text after it. -/
def replaceMatches (find : List Char → Option (Option (List Char) × List Char)) :
    Nat → List Char → Option (List Char)
  | _, [] => some []
  | skip + 1, _ :: rest => replaceMatches find skip rest
  | 0, character :: rest =>
      match find (character :: rest) with
      | none => (replaceMatches find 0 rest).map (character :: ·)
      | some (replacement, remaining) =>
          replacement.bind fun replaced =>
            (replaceMatches find (rest.length - remaining.length) rest).map (replaced ++ ·)

variable {find : List Char → Option (Option (List Char) × List Char)}

theorem isSome_replaceMatches {α : Type} {find : List Char → Option (α × List Char)}
    {replacement : List Char → α × List Char → Option (List Char)} {panics : α → Prop}
    (panicking : ∀ text found, replacement text found = none ↔ panics found.1) (skip : Nat)
    (text : List Char) :
    (replaceMatches (fun text => (find text).map fun found => (replacement text found, found.2))
      skip text).isSome = true ↔ ∀ value ∈ occurrences find skip text, ¬ panics value := by
  induction text generalizing skip with
  | nil => simp [replaceMatches, occurrences]
  | cons character rest induction =>
      cases skip with
      | succ skip => exact induction skip
      | zero =>
          rw [replaceMatches, occurrences]
          cases found : find (character :: rest) with
          | none =>
              rw [← induction 0]
              simp
          | some occurrence =>
              rcases occurrence with ⟨value, remaining⟩
              rw [List.forall_mem_cons, ← induction (rest.length - remaining.length),
                ← panicking (character :: rest) (value, remaining)]
              cases given : replacement (character :: rest) (value, remaining) with
              | none => simp [given]
              | some replaced => simp [given]

structure Erases (find : List Char → Option (Option (List Char) × List Char)) : Prop where
  shown : ∀ {character rest found}, find (character :: rest) = some found →
    isWhitespace character = false
  splits : ∀ {character rest replacement remaining},
    find (character :: rest) = some (replacement, remaining) →
    ∃ inner, rest = inner ++ remaining ∧
      ∀ replaced ∈ replacement, replaced = [] ∨ replaced = character :: inner

variable {result text : List Char}

theorem Erases.keeps_or_removes (erases : Erases find)
    (replaced : replaceMatches find skip text = some result) :
    result = text.drop skip ∨ (visible result).length < (visible (text.drop skip)).length := by
  induction text generalizing skip result with
  | nil =>
      rw [replaceMatches] at replaced
      cases replaced
      left
      rw [List.drop_nil]
  | cons character rest induction =>
      cases skip with
      | succ skip =>
          rw [replaceMatches] at replaced
          rw [List.drop_succ_cons]
          exact induction replaced
      | zero =>
          rw [replaceMatches] at replaced
          rw [List.drop_zero]
          cases found : find (character :: rest) with
          | none =>
              rw [found] at replaced
              rcases Option.map_eq_some_iff.mp replaced with ⟨later, passed, rfl⟩
              rcases induction passed with same | fewer
              · left
                rw [same, List.drop_zero]
              · right
                rw [List.drop_zero] at fewer
                rw [← List.singleton_append, visible_append, List.length_append,
                  ← @List.singleton_append _ character rest, visible_append,
                  List.length_append]
                omega
          | some occurrence =>
              rcases occurrence with ⟨replacement, remaining⟩
              rw [found] at replaced
              rcases Option.bind_eq_some_iff.mp replaced with ⟨inserted, given, mapped⟩
              rcases Option.map_eq_some_iff.mp mapped with ⟨later, passed, rfl⟩
              rcases erases.splits found with ⟨inner, rfl, choices⟩
              have shown := erases.shown found
              have dropped : (inner ++ remaining).drop
                  ((inner ++ remaining).length - remaining.length) = remaining := by
                rw [List.length_append, Nat.add_sub_cancel, List.drop_left]
              have after := induction passed
              rw [dropped] at after
              rcases choices inserted given with rfl | rfl
              · right
                have longer : (visible remaining).length <
                    (visible (character :: (inner ++ remaining))).length := by
                  rw [visible_cons shown, visible_append, List.length_cons, List.length_append]
                  omega
                rw [List.nil_append]
                rcases after with same | fewer
                · rw [same]
                  exact longer
                · exact fewer.trans longer
              · rcases after with same | fewer
                · left
                  rw [same]
                  rfl
                · right
                  rw [← List.cons_append, visible_append, visible_append, List.length_append,
                    List.length_append]
                  omega

/-- A pass that finds only what it leaves alone changes nothing. -/
theorem replaceMatches_unchanged {skip : Nat}
    (kept : ∀ rest, rest <:+ text → ∀ replacement remaining,
      find rest = some (replacement, remaining) →
      ∃ first inner, rest = first :: inner ++ remaining ∧ replacement = some (first :: inner)) :
    replaceMatches find skip text = some (text.drop skip) := by
  induction text generalizing skip with
  | nil => rw [replaceMatches, List.drop_nil]
  | cons character rest induction =>
      have later : ∀ skip, replaceMatches find skip rest = some (rest.drop skip) := by
        intro skip
        apply induction
        intro tail suffix
        exact kept tail (suffix.trans (List.suffix_cons character rest))
      cases skip with
      | succ skip => rw [replaceMatches, later, List.drop_succ_cons]
      | zero =>
          rw [replaceMatches, List.drop_zero]
          cases found : find (character :: rest) with
          | none =>
              dsimp only
              rw [later, List.drop_zero]
              rfl
          | some occurrence =>
              rcases occurrence with ⟨replacement, remaining⟩
              rcases kept _ List.suffix_rfl _ _ found with ⟨first, inner, split, rfl⟩
              rw [List.cons_append] at split
              cases split
              dsimp only
              rw [later, List.length_append, Nat.add_sub_cancel, List.drop_left]
              rfl

theorem Erases.removes_start (erases : Erases find) {replacement : Option (List Char)}
    (found : find (character :: rest) = some (replacement, remaining))
    (erased : ∀ replaced ∈ replacement, replaced = [])
    (replaced : replaceMatches find 0 (character :: rest) = some result) :
    (visible result).length < (visible (character :: rest)).length := by
  rw [replaceMatches, found] at replaced
  rcases Option.bind_eq_some_iff.mp replaced with ⟨inserted, given, mapped⟩
  rcases Option.map_eq_some_iff.mp mapped with ⟨later, passed, rfl⟩
  rcases erases.splits found with ⟨inner, rfl, -⟩
  rw [erased inserted given, List.nil_append, visible_cons (erases.shown found),
    visible_append, List.length_cons, List.length_append]
  have after := erases.keeps_or_removes passed
  rw [List.length_append, Nat.add_sub_cancel, List.drop_left] at after
  rcases after with rfl | fewer
  · omega
  · omega

end Replacement

/-! ### Readings -/

section Readings

open LeftmostReading

variable {α : Type} {matcher : Matcher α}

def Matcher.Finds (matcher : Matcher α) : Occurs Char (List Char × α) :=
  fun text found rest => text = found.1 ++ rest ∧ matcher text = some (found.2, rest)

theorem Matcher.Stable.lawful_finds (stable : matcher.Stable) (nonempty : matcher [] = none) :
    Lawful matcher.Finds where
  unique {text value other rest remaining} found again := by
    rcases found with ⟨split, matched⟩
    rcases again with ⟨otherSplit, otherMatched⟩
    rw [matched] at otherMatched
    rcases Prod.mk.inj (Option.some.inj otherMatched) with ⟨same, rfl⟩
    exact ⟨Prod.ext (List.append_cancel_right (split.symm.trans otherSplit)) same, rfl⟩
  splits {text value rest} found := by
    rcases stable.truncates found.2 with ⟨part, split, alone⟩
    cases part with
    | nil =>
        rw [nonempty] at alone
        cases alone
    | cons first inner => exact ⟨first, inner, split⟩

theorem Matcher.Stable.eq_none_of_free (stable : matcher.Stable) (nonempty : matcher [] = none)
    (free : Free matcher.Finds gap after) (inside : part <:+: gap) : matcher part = none := by
  rcases inside with ⟨before, behind, rfl⟩
  by_contra present
  have shown : part ≠ [] := fun empty => present (by rw [empty, nonempty])
  have grown := stable.grows (Option.isSome_iff_ne_none.mpr present) (behind ++ after)
  rcases Option.isSome_iff_exists.mp grown with ⟨⟨value, rest⟩, found⟩
  rcases stable.truncates found with ⟨matched, split, -⟩
  have starts : part ++ behind <:+ before ++ part ++ behind :=
    ⟨before, (List.append_assoc before part behind).symm⟩
  rw [← List.append_assoc] at split found
  exact free (part ++ behind) (by simp [shown]) starts (matched, value) rest ⟨split, found⟩

theorem replaceMatches_eq_scan {find : List Char → Option (α × List Char)}
    {write : α → Option (List Char)} {left : α → List Char}
    (writes : ∀ value replaced, write value = some replaced → replaced = left value)
    {skip : Nat} {text result : List Char}
    (passed : replaceMatches (fun text => (find text).map fun found => (write found.1, found.2))
      skip text = some result) :
    result = (scan find skip text).flatMap (Sum.elim (fun single => [single]) left) := by
  induction text generalizing skip result with
  | nil =>
      rw [replaceMatches] at passed
      rw [scan]
      exact (Option.some.inj passed).symm
  | cons character rest induction =>
      cases skip with
      | succ skip => exact induction passed
      | zero =>
          rw [replaceMatches] at passed
          rw [scan]
          cases found : find (character :: rest) with
          | none =>
              rw [found, Option.map_none] at passed
              rcases Option.map_eq_some_iff.mp passed with ⟨later, laterPassed, rfl⟩
              rw [induction laterPassed]
              rfl
          | some occurrence =>
              rw [found, Option.map_some] at passed
              rcases Option.bind_eq_some_iff.mp passed with ⟨replaced, written, mapped⟩
              rcases Option.map_eq_some_iff.mp mapped with ⟨later, laterPassed, rfl⟩
              rw [writes _ _ written, induction laterPassed]
              rfl

/-- A pass writes something in place of each match that a reading from left to right finds. -/
theorem exists_reads_replaceMatches (stable : matcher.Stable) (nonempty : matcher [] = none)
    {write : List Char × α → Option (List Char)} {left : List Char × α → List Char}
    (writes : ∀ found replaced, write found = some replaced → replaced = left found)
    (passed : replaceMatches (fun text => (matcher text).map fun found =>
      (write (text.take (text.length - found.2.length), found.1), found.2)) 0 text =
        some result) :
    ∃ parts last, Reads matcher.Finds text parts last ∧ result = replaced left parts last := by
  let find : List Char → Option ((List Char × α) × List Char) := fun text =>
    (matcher text).map fun found => ((text.take (text.length - found.2.length), found.1), found.2)
  have finds : ∀ text found rest, find text = some (found, rest) ↔
      matcher.Finds text found rest := by
    intro text found rest
    constructor
    · intro given
      rcases Option.map_eq_some_iff.mp given with ⟨⟨value, remaining⟩, matched, same⟩
      cases same
      rcases stable.truncates matched with ⟨part, split, -⟩
      refine ⟨?_, matched⟩
      rw [split, List.length_append, Nat.add_sub_cancel, List.take_left]
    · rintro ⟨split, matched⟩
      refine Option.map_eq_some_iff.mpr ⟨_, matched, ?_⟩
      rw [split, List.length_append, Nat.add_sub_cancel, List.take_left]
  rcases exists_reads_scan (stable.lawful_finds nonempty) finds text with
    ⟨parts, last, reads, scanned⟩
  refine ⟨parts, last, reads, ?_⟩
  rw [← flatMap_items, ← scanned]
  apply @replaceMatches_eq_scan _ find write left writes 0 text
  rw [← passed]
  congr 1
  funext start
  dsimp only [find]
  rw [Option.map_map]
  rfl

end Readings

/-! ## Cleaning chunk by chunk -/

section Chunks

variable {strip : List Char → Option (List Char)} {text : List Char}

structure Strips (strip : List Char → Option (List Char)) : Prop where
  nil : strip [] = some []
  single : ∀ character, strip [character] = some (trim [character])
  trims_or_removes : ∀ {part stripped}, strip part = some stripped →
    stripped = trim part ∨ (visible stripped).length < (visible part).length

theorem mapM_eq_some {clean : List Char → List Char} {chunks : List (List Char)}
    (each : ∀ chunk ∈ chunks, strip chunk = some (clean chunk)) :
    chunks.mapM strip = some (chunks.map clean) := by
  induction chunks with
  | nil => rfl
  | cons chunk chunks induction =>
      rw [List.mapM_cons, each chunk List.mem_cons_self,
        induction fun other member => each other (List.mem_cons_of_mem _ member)]
      rfl

theorem visible_flatten (chunks : List (List Char)) :
    visible chunks.flatten = (chunks.map visible).flatten := by
  induction chunks with
  | nil => rfl
  | cons chunk chunks induction =>
      rw [List.flatten_cons, visible_append, induction, List.map_cons, List.flatten_cons]

theorem visible_visible (text : List Char) : visible (visible text) = visible text := by
  rw [visible, visible, List.filter_filter]
  simp

theorem trim_singleton (character : Char) : trim [character] = visible [character] := by
  cases shown : isWhitespace character with
  | false => simp [trim, trimStart, trimEnd, visible, shown]
  | true => simp [trim, trimStart, trimEnd, visible, shown]

theorem eq_nil_of_blank (shown : ∀ character ∈ part, isWhitespace character = false)
    (blank : Blank part) : part = [] := by
  apply List.eq_nil_iff_forall_not_mem.mpr
  intro character member
  have space := blank character member
  rw [shown character member] at space
  cases space

def singletons (text : List Char) : List (List Char) :=
  text.map fun character => [character]

theorem flatten_singletons (text : List Char) : (singletons text).flatten = text := by
  induction text with
  | nil => rfl
  | cons character rest induction =>
      rw [singletons, List.map_cons, List.flatten_cons, ← singletons, induction]
      rfl

theorem Strips.mapM_singletons (strips : Strips strip) (text : List Char) :
    (singletons text).mapM strip = some ((singletons text).map visible) := by
  apply mapM_eq_some
  intro chunk member
  rcases List.mem_map.mp member with ⟨character, -, rfl⟩
  rw [strips.single, trim_singleton]

/-- What the chunks of a text leave: the text itself if nothing is left of them. -/
def cleanedOr (text : List Char) (cleaned : List (List Char)) : List Char :=
  if cleaned.flatten = [] then text else cleaned.flatten

theorem cleaned_of_solid (solid : Solid text)
    (shown : ¬Blank text) (kept : ∀ part, part <:+: text → strip part = some (trim part))
    {chunks : List (List Char)} (joined : chunks.flatten = text) :
    ∃ cleaned, chunks.mapM strip = some cleaned ∧ strip text = some (cleanedOr text cleaned) := by
  have inside : ∀ chunk ∈ chunks, chunk <:+: text := by
    intro chunk member
    rw [← joined]
    exact List.infix_of_mem_flatten member
  have each : ∀ chunk ∈ chunks, strip chunk = some (visible chunk) := by
    intro chunk member
    rw [kept chunk (inside chunk member), (solid.of_infix (inside chunk member)).trim_eq]
  refine ⟨chunks.map visible, mapM_eq_some each, ?_⟩
  have left : visible text ≠ [] := fun empty => shown (visible_eq_nil.mp empty)
  rw [kept text List.infix_rfl, solid.trim_eq, cleanedOr, ← visible_flatten, joined, if_neg left]

theorem Strips.kept_of_always (strips : Strips strip)
    (always : ∀ chunks : List (List Char), chunks.flatten = before ++ part ++ after →
      ∃ cleaned, chunks.mapM strip = some cleaned ∧
        some (visible (before ++ part ++ after)) =
          some (cleanedOr (before ++ part ++ after) cleaned))
    (whole : strip (before ++ part ++ after) = some (visible (before ++ part ++ after)))
    (shown : ¬Blank (before ++ part ++ after)) : strip part = some (trim part) := by
  rcases always (singletons before ++ [part] ++ singletons after)
    (by simp [flatten_singletons]) with ⟨cleaned, mapped, same⟩
  rw [List.mapM_append, List.mapM_append, strips.mapM_singletons, strips.mapM_singletons] at mapped
  cases stripped : strip part with
  | none =>
      rw [List.mapM_cons, stripped] at mapped
      cases mapped
  | some result =>
      rw [List.mapM_cons, stripped] at mapped
      cases mapped
      rw [cleanedOr, List.flatten_append, List.flatten_append, ← visible_flatten,
        ← visible_flatten, flatten_singletons, flatten_singletons, List.reverse_nil,
        List.flatten_singleton] at same
      rcases strips.trims_or_removes stripped with trimmed | fewer
      · rw [trimmed]
      exfalso
      have equal := Option.some.inj same
      split at equal
      next nothing =>
        rcases List.append_eq_nil_iff.mp nothing with ⟨left, emptyAfter⟩
        rcases List.append_eq_nil_iff.mp left with ⟨emptyBefore, emptyResult⟩
        have allShown : ∀ character ∈ before ++ part ++ after,
            isWhitespace character = false := by
          intro character member
          rw [← equal] at member
          exact isWhitespace_of_mem_visible member
        have noBefore : before = [] := by
          apply eq_nil_of_blank _ (visible_eq_nil.mp emptyBefore)
          intro character member
          exact allShown character (by simp [member])
        have noAfter : after = [] := by
          apply eq_nil_of_blank _ (visible_eq_nil.mp emptyAfter)
          intro character member
          exact allShown character (by simp [member])
        subst noBefore noAfter emptyResult
        rw [List.nil_append, List.append_nil] at whole shown
        rw [whole] at stripped
        exact shown (visible_eq_nil.mp (Option.some.inj stripped))
      next =>
        have lengths := congrArg (fun list => (visible list).length) equal
        simp only [visible_visible, visible_append, List.length_append] at lengths
        omega

theorem Strips.chunks_iff (strips : Strips strip) (text : List Char) :
    (∀ chunks : List (List Char), chunks.flatten = text →
      ∃ cleaned, chunks.mapM strip = some cleaned ∧
        strip text = some (cleanedOr text cleaned)) ↔
      text = [] ∨ ¬Blank text ∧ Solid text ∧
        ∀ part, part <:+: text → strip part = some (trim part) := by
  constructor
  · intro always
    by_cases empty : text = []
    · exact .inl empty
    right
    rcases always (singletons text) (flatten_singletons text) with ⟨letters, mapped, stripped⟩
    rw [strips.mapM_singletons] at mapped
    cases mapped
    rw [cleanedOr, ← visible_flatten, flatten_singletons] at stripped
    have shown : ¬Blank text := by
      intro blank
      rw [if_pos (visible_eq_nil.mpr blank)] at stripped
      rcases strips.trims_or_removes stripped with trimmed | fewer
      · have nothing : trim text = [] := @trim_append_of_blank [] text blank
        exact empty (trimmed.trans nothing)
      · omega
    rw [if_neg fun nothing => shown (visible_eq_nil.mp nothing)] at stripped
    refine ⟨shown, ?_, ?_⟩
    · rcases strips.trims_or_removes stripped with trimmed | fewer
      · exact solid_of_trim_eq trimmed.symm
      · rw [visible_visible] at fewer
        omega
    · intro part inside
      rcases inside with ⟨before, after, rfl⟩
      rw [stripped] at always
      exact strips.kept_of_always always stripped shown
  · intro condition
    rcases condition with rfl | ⟨shown, solid, kept⟩
    · intro chunks joined
      have each : ∀ chunk ∈ chunks, strip chunk = some (visible chunk) := by
        intro chunk member
        rw [List.flatten_eq_nil_iff.mp joined chunk member]
        exact strips.nil
      refine ⟨chunks.map visible, mapM_eq_some each, ?_⟩
      rw [cleanedOr, ← visible_flatten, joined]
      exact strips.nil
    · intro chunks joined
      exact cleaned_of_solid solid shown kept joined

end Chunks

end Text
