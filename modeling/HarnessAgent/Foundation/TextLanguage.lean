import Mathlib.Computability.Language

/-! # Languages of texts

Sets of texts put together from classes of characters, and the longest prefix of a text
that is in such a set.
-/

namespace TextLanguage

open scoped Computability

variable {α : Type*}

/-! ## Classes of characters -/

def oneOf (inClass : α → Bool) : Language α :=
  {text | ∃ character, inClass character = true ∧ text = [character]}

def optional (language : Language α) : Language α :=
  1 + language

def repeated (inClass : α → Bool) : Language α :=
  oneOf inClass * (oneOf inClass)∗

variable {text : List α}

variable {inClass : α → Bool}

theorem mem_oneOf :
    text ∈ oneOf inClass ↔ ∃ character, inClass character = true ∧ text = [character] :=
  Iff.rfl

theorem mem_oneOf_mul {language : Language α} :
    text ∈ oneOf inClass * language ↔
      ∃ first rest, inClass first = true ∧ rest ∈ language ∧ text = first :: rest := by
  rw [Language.mem_mul]
  constructor
  · intro split
    rcases split with ⟨front, isFront, rest, isRest, rfl⟩
    rcases mem_oneOf.mp isFront with ⟨first, inClassFirst, rfl⟩
    exact ⟨first, rest, inClassFirst, isRest, rfl⟩
  · intro split
    rcases split with ⟨first, rest, inClassFirst, isRest, rfl⟩
    exact ⟨[first], mem_oneOf.mpr ⟨first, inClassFirst, rfl⟩, rest, isRest, rfl⟩

theorem mem_optional {language : Language α} :
    text ∈ optional language ↔ text = [] ∨ text ∈ language := by
  rw [optional, Language.mem_add, Language.mem_one]

theorem mem_kstar_oneOf :
    text ∈ (oneOf inClass)∗ ↔ ∀ character ∈ text, inClass character = true := by
  rw [Language.mem_kstar]
  constructor
  · intro split character member
    rcases split with ⟨parts, rfl, each⟩
    rcases List.mem_flatten.mp member with ⟨part, listed, inside⟩
    rcases mem_oneOf.mp (each part listed) with ⟨single, inClassSingle, rfl⟩
    rw [List.mem_singleton.mp inside]
    exact inClassSingle
  · intro all
    refine ⟨text.map fun character => [character], ?_, ?_⟩
    · rw [← List.flatMap_def, List.flatMap_singleton']
    · intro part listed
      rcases List.mem_map.mp listed with ⟨character, member, rfl⟩
      exact mem_oneOf.mpr ⟨character, all character member, rfl⟩

theorem mem_repeated :
    text ∈ repeated inClass ↔ text ≠ [] ∧ ∀ character ∈ text, inClass character = true := by
  rw [repeated, mem_oneOf_mul]
  constructor
  · intro split
    rcases split with ⟨first, rest, inClassFirst, isRest, rfl⟩
    exact ⟨List.cons_ne_nil _ _,
      List.forall_mem_cons.mpr ⟨inClassFirst, mem_kstar_oneOf.mp isRest⟩⟩
  · intro digits
    rcases digits with ⟨shown, all⟩
    cases text with
    | nil => exact absurd rfl shown
    | cons first rest =>
        rcases List.forall_mem_cons.mp all with ⟨inClassFirst, later⟩
        exact ⟨first, rest, inClassFirst, mem_kstar_oneOf.mpr later, rfl⟩

/-! ## Words -/

section Words

variable [DecidableEq α] (inClass : α → Bool) (separator : α)

def words : Language α :=
  repeated inClass * (oneOf (· == separator) * repeated inClass)∗

def wordsRest : Language α :=
  (oneOf inClass)∗ * (oneOf (· == separator) * repeated inClass)∗

theorem words_eq : words inClass separator = oneOf inClass * wordsRest inClass separator :=
  mul_assoc _ _ _

theorem wordsRest_eq :
    wordsRest inClass separator =
      1 + oneOf inClass * wordsRest inClass separator +
        oneOf (· == separator) * (oneOf inClass * wordsRest inClass separator) := by
  let one := oneOf inClass
  let part := oneOf (· == separator) * repeated inClass
  calc
    wordsRest inClass separator = (1 + one * one∗) * part∗ := by
      rw [Language.one_add_self_mul_kstar_eq_kstar]
      rfl
    _ = part∗ + one * (one∗ * part∗) := by
      rw [add_mul, one_mul, mul_assoc]
    _ = 1 + part * part∗ + one * (one∗ * part∗) := by
      rw [Language.one_add_self_mul_kstar_eq_kstar]
    _ = 1 + one * (one∗ * part∗) + part * part∗ := add_right_comm _ _ _
    _ = 1 + one * (one∗ * part∗) + oneOf (· == separator) * (one * (one∗ * part∗)) := by
      congr 1
      rw [← mul_assoc one, mul_assoc]
      rfl

variable {inClass separator}

theorem mem_words_iff :
    text ∈ words inClass separator ↔
      ∃ first rest, inClass first = true ∧ rest ∈ wordsRest inClass separator ∧
        text = first :: rest := by
  rw [words_eq, mem_oneOf_mul]

theorem nil_mem_wordsRest : [] ∈ wordsRest inClass separator := by
  rw [wordsRest_eq, Language.mem_add, Language.mem_add]
  exact .inl (.inl rfl)

variable {rest : List α}

theorem cons_mem_wordsRest (inClassFirst : inClass first = true)
    (isRest : rest ∈ wordsRest inClass separator) :
    first :: rest ∈ wordsRest inClass separator := by
  rw [wordsRest_eq, Language.mem_add, Language.mem_add]
  exact .inl (.inr (mem_oneOf_mul.mpr ⟨first, rest, inClassFirst, isRest, rfl⟩))

theorem separator_mem_wordsRest (inClassFirst : inClass first = true)
    (isRest : rest ∈ wordsRest inClass separator) :
    separator :: first :: rest ∈ wordsRest inClass separator := by
  rw [wordsRest_eq, Language.mem_add]
  refine .inr (mem_oneOf_mul.mpr ⟨separator, first :: rest, beq_self_eq_true separator, ?_, rfl⟩)
  exact mem_oneOf_mul.mpr ⟨first, rest, inClassFirst, isRest, rfl⟩

theorem mem_wordsRest_of_cons (other : first ≠ separator)
    (isRest : first :: rest ∈ wordsRest inClass separator) :
    inClass first = true ∧ rest ∈ wordsRest inClass separator := by
  rw [wordsRest_eq, Language.mem_add, Language.mem_add] at isRest
  rcases isRest with (empty | character) | isSeparated
  · cases (Language.mem_one _).mp empty
  · rcases mem_oneOf_mul.mp character with ⟨same, later, inClassFirst, isLater, split⟩
    cases split
    exact ⟨inClassFirst, isLater⟩
  · rcases mem_oneOf_mul.mp isSeparated with ⟨mark, later, isMark, -, split⟩
    cases split
    exact absurd (beq_iff_eq.mp isMark) other

theorem wordsRest_induction {motive : List α → Prop} (nil : motive [])
    (cons : ∀ first rest, inClass first = true → rest ∈ wordsRest inClass separator →
      motive rest → motive (first :: rest))
    (separated : ∀ first rest, inClass first = true → rest ∈ wordsRest inClass separator →
      motive rest → motive (separator :: first :: rest))
    (text : List α) (isRest : text ∈ wordsRest inClass separator) : motive text := by
  have bounded : ∀ bound (text : List α), text.length ≤ bound →
      text ∈ wordsRest inClass separator → motive text := by
    intro bound
    induction bound with
    | zero =>
        intro text short _
        rw [List.length_eq_zero_iff.mp (Nat.le_zero.mp short)]
        exact nil
    | succ bound induction =>
        intro text short isText
        rw [wordsRest_eq, Language.mem_add, Language.mem_add] at isText
        rcases isText with (empty | character) | isSeparated
        · rw [(Language.mem_one text).mp empty]
          exact nil
        · rcases mem_oneOf_mul.mp character with ⟨first, rest, inClassFirst, isRest, rfl⟩
          rw [List.length_cons] at short
          exact cons first rest inClassFirst isRest (induction rest (by omega) isRest)
        · rcases mem_oneOf_mul.mp isSeparated with ⟨mark, behind, isMark, isBehind, rfl⟩
          rcases mem_oneOf_mul.mp isBehind with ⟨first, rest, inClassFirst, isRest, rfl⟩
          rw [List.length_cons, List.length_cons] at short
          rw [beq_iff_eq.mp isMark]
          exact separated first rest inClassFirst isRest (induction rest (by omega) isRest)
  exact bounded text.length text (Nat.le_refl _) isRest

theorem append_mem_wordsRest (isLeft : left ∈ wordsRest inClass separator)
    (isRight : right ∈ wordsRest inClass separator) :
    left ++ right ∈ wordsRest inClass separator := by
  apply wordsRest_induction (motive := fun left => left ++ right ∈ wordsRest inClass separator)
    _ _ _ left isLeft
  · exact isRight
  · intro first rest inClassFirst _ induction
    exact cons_mem_wordsRest inClassFirst induction
  · intro first rest inClassFirst _ induction
    exact separator_mem_wordsRest inClassFirst induction

theorem singleton_mem_words (inClassCharacter : inClass character = true) :
    [character] ∈ words inClass separator :=
  mem_words_iff.mpr ⟨character, [], inClassCharacter, nil_mem_wordsRest, rfl⟩

theorem append_mem_words (isWords : text ∈ words inClass separator)
    (isRest : rest ∈ wordsRest inClass separator) : text ++ rest ∈ words inClass separator := by
  rcases mem_words_iff.mp isWords with ⟨first, behind, inClassFirst, isBehind, rfl⟩
  exact mem_words_iff.mpr
    ⟨first, behind ++ rest, inClassFirst, append_mem_wordsRest isBehind isRest, rfl⟩

end Words

/-! ## Longest prefixes -/

structure IsLongestPrefix (language : Language α) (text longest : List α) : Prop where
  isMember : longest ∈ language
  isPrefix : longest <+: text
  length_le : ∀ other ∈ language, other <+: text → other.length ≤ longest.length

theorem IsLongestPrefix.unique (isLeft : IsLongestPrefix language text left)
    (isRight : IsLongestPrefix language text right) : left = right := by
  have lengths : left.length = right.length :=
    Nat.le_antisymm (isRight.length_le left isLeft.isMember isLeft.isPrefix)
      (isLeft.length_le right isRight.isMember isRight.isPrefix)
  have within := List.prefix_of_prefix_length_le isLeft.isPrefix isRight.isPrefix
    (Nat.le_of_eq lengths)
  exact within.eq_of_length lengths

structure Scans (language : Language α) (scan : List α → Option (List α)) : Prop where
  sound : ∀ {text found}, scan text = some found → found ∈ language ∧ found <+: text
  complete : ∀ {part} rest, part ∈ language →
    ∃ found, scan (part ++ rest) = some found ∧ part.length ≤ found.length

variable {language : Language α} {scan : List α → Option (List α)}

theorem Scans.eq_some_iff (scans : Scans language scan) {longest : List α} :
    scan text = some longest ↔ IsLongestPrefix language text longest := by
  have isLongest : ∀ {found}, scan text = some found → IsLongestPrefix language text found := by
    intro found scanned
    refine ⟨(scans.sound scanned).1, (scans.sound scanned).2, ?_⟩
    intro other isMember isPrefix
    rcases isPrefix with ⟨rest, rfl⟩
    rcases scans.complete rest isMember with ⟨same, again, longer⟩
    rw [scanned] at again
    cases again
    exact longer
  constructor
  · exact isLongest
  · intro longestPrefix
    rcases longestPrefix.isPrefix with ⟨rest, rfl⟩
    rcases scans.complete rest longestPrefix.isMember with ⟨found, scanned, -⟩
    rw [scanned, (isLongest scanned).unique longestPrefix]

theorem Scans.eq_none_iff (scans : Scans language scan) :
    scan text = none ↔ ∀ part, part <+: text → part ∉ language := by
  constructor
  · intro failed part isPrefix isMember
    rcases isPrefix with ⟨rest, rfl⟩
    rcases scans.complete rest isMember with ⟨found, scanned, -⟩
    rw [failed] at scanned
    cases scanned
  · intro absent
    cases scanned : scan text with
    | none => rfl
    | some found =>
        rcases scans.sound scanned with ⟨isMember, isPrefix⟩
        exact absurd isMember (absent found isPrefix)

end TextLanguage
