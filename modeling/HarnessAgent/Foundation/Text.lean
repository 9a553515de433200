import Mathlib.Data.List.DropRight
import Mathlib.Data.List.Infix

/-! # Text

Texts are handled as lists of characters. White space is the Unicode property that
trimming and regular expressions use by default.
-/

namespace Text

instance lawfulBEq : LawfulBEq (List Char) := inferInstance

def isWhitespace (character : Char) : Bool :=
  let code := character.toNat
  (9 ≤ code && code ≤ 13) || code == 0x20 || code == 0x85 || code == 0xA0 ||
    code == 0x1680 || (0x2000 ≤ code && code ≤ 0x200A) || code == 0x2028 ||
    code == 0x2029 || code == 0x202F || code == 0x205F || code == 0x3000

/-- The zeros of the decimal digit sequences; each is followed by its nine other
digits. -/
def decimalZeros : List Nat :=
  [0x30, 0x660, 0x6F0, 0x7C0, 0x966, 0x9E6, 0xA66, 0xAE6, 0xB66, 0xBE6, 0xC66, 0xCE6,
    0xD66, 0xDE6, 0xE50, 0xED0, 0xF20, 0x1040, 0x1090, 0x17E0, 0x1810, 0x1946, 0x19D0,
    0x1A80, 0x1A90, 0x1B50, 0x1BB0, 0x1C40, 0x1C50, 0xA620, 0xA8D0, 0xA900, 0xA9D0,
    0xA9F0, 0xAA50, 0xABF0, 0xFF10, 0x104A0, 0x10D30, 0x10D40, 0x11066, 0x110F0,
    0x11136, 0x111D0, 0x112F0, 0x11450, 0x114D0, 0x11650, 0x116C0, 0x116D0, 0x116DA,
    0x11730, 0x118E0, 0x11950, 0x11BF0, 0x11C50, 0x11D50, 0x11DA0, 0x11F50, 0x16A60,
    0x16AC0, 0x16B50, 0x16D70, 0x1CCF0, 0x1D7CE, 0x1D7D8, 0x1D7E2, 0x1D7EC, 0x1D7F6,
    0x1E140, 0x1E2F0, 0x1E4F0, 0x1E5F1, 0x1E950, 0x1FBF0]

def isDecimalDigit (character : Char) : Bool :=
  decimalZeros.any fun first => first ≤ character.toNat && character.toNat ≤ first + 9

def isAsciiDigit (character : Char) : Bool :=
  0x30 ≤ character.toNat && character.toNat ≤ 0x39

def isAsciiLetter (character : Char) : Bool :=
  (0x41 ≤ character.toNat && character.toNat ≤ 0x5A) ||
    (0x61 ≤ character.toNat && character.toNat ≤ 0x7A)

def trimStart (text : List Char) : List Char :=
  text.dropWhile isWhitespace

def trimEnd (text : List Char) : List Char :=
  (text.reverse.dropWhile isWhitespace).reverse

def trim (text : List Char) : List Char :=
  trimEnd (trimStart text)

def Blank (text : List Char) : Prop :=
  ∀ character ∈ text, isWhitespace character = true

theorem trimStart_append_of_blank {text : List Char} (blank : Blank before) :
    trimStart (before ++ text) = trimStart text :=
  List.dropWhile_append_of_pos blank

theorem trimEnd_append_of_blank {text after : List Char} (blank : Blank after) :
    trimEnd (text ++ after) = trimEnd text := by
  rw [trimEnd, List.reverse_append, List.dropWhile_append_of_pos, trimEnd]
  intro character member
  exact blank character (List.mem_reverse.mp member)

/-- A text is its trimmed part between two blank ones. -/
theorem exists_trim (text : List Char) :
    ∃ before after, Blank before ∧ Blank after ∧ text = before ++ trim text ++ after := by
  refine ⟨text.takeWhile isWhitespace, (trimStart text).rtakeWhile isWhitespace, ?_, ?_, ?_⟩
  · intro character member
    exact List.mem_takeWhile_imp member
  · intro character member
    exact List.mem_rtakeWhile_imp member
  · have ends : trim text ++ (trimStart text).rtakeWhile isWhitespace = trimStart text :=
      List.rdropWhile_append_rtakeWhile
    rw [List.append_assoc, ends]
    exact List.takeWhile_append_dropWhile.symm

theorem trim_append_of_blank {text after : List Char} (blank : Blank after) :
    trim (text ++ after) = trim text := by
  rw [trim, trim, trimStart, trimStart, List.dropWhile_append]
  split
  next empty =>
    have left : text.dropWhile isWhitespace = [] := List.isEmpty_iff.mp empty
    have right : after.dropWhile isWhitespace = [] := List.dropWhile_eq_nil_iff.mpr blank
    rw [left, right]
  next => exact trimEnd_append_of_blank blank

theorem trim_of_blank_append {text : List Char} (blank : Blank before) :
    trim (before ++ text) = trim text := by
  rw [trim, trimStart_append_of_blank blank, trim]

/-- Trimming keeps a text that neither starts nor ends with white space. -/
theorem trim_eq_self {first last : Char} {middle : List Char}
    (starts : isWhitespace first = false) (ends : isWhitespace last = false) :
    trim (first :: middle ++ [last]) = first :: middle ++ [last] := by
  rw [trim, trimStart, List.cons_append, List.dropWhile_cons_of_neg (by simp [starts]),
    ← List.cons_append]
  exact List.rdropWhile_concat_neg _ _ _ (by simp [ends])

@[simp] theorem trim_trim (text : List Char) : trim (trim text) = trim text := by
  rcases exists_trim text with ⟨before, after, blankBefore, blankAfter, split⟩
  have outer : trim text = trim (before ++ trim text ++ after) := congrArg trim split
  rw [trim_append_of_blank blankAfter, trim_of_blank_append blankBefore] at outer
  exact outer.symm

def afterLiteral (literal : List Char) : List Char → Option (List Char) :=
  literal.isPrefixOf?

/-- A maximal run of characters of one class whose first character is also of
another class, with the rest of the text. -/
def identifier (isStart isPart : Char → Bool) : List Char → Option (List Char × List Char)
  | [] => none
  | first :: rest =>
      if isStart first then
        some (first :: rest.takeWhile isPart, rest.dropWhile isPart)
      else none

theorem identifier_of_whole (whole : identifier isStart isPart name = some (name, []))
    (ends : ∀ character ∈ rest.head?, isPart character = false) :
    identifier isStart isPart (name ++ rest) = some (name, rest) := by
  cases name with
  | nil => cases whole
  | cons first parts =>
      rw [identifier] at whole
      split at whole
      next starts =>
        have all : ∀ character ∈ parts, isPart character = true :=
          List.dropWhile_eq_nil_iff.mp (Prod.mk.inj (Option.some.inj whole)).2
        have stops : rest.takeWhile isPart = [] ∧ rest.dropWhile isPart = rest := by
          cases rest with
          | nil => exact ⟨rfl, rfl⟩
          | cons next rest => simp [ends next rfl]
        rw [List.cons_append, identifier, if_pos starts, List.takeWhile_append_of_pos all,
          List.dropWhile_append_of_pos all, stops.1, stops.2, List.append_nil]
      next => cases whole

theorem mem_of_identifier (found : identifier isStart isPart text = some (name, rest)) :
    ∀ character ∈ name, isStart character = true ∨ isPart character = true := by
  cases text with
  | nil => cases found
  | cons first parts =>
      rw [identifier] at found
      split at found
      next starts =>
        cases found
        intro character member
        rcases List.mem_cons.mp member with rfl | later
        · exact .inl starts
        · exact .inr (List.mem_takeWhile_imp later)
      next => cases found

theorem forall_of_all {text : List Char} {property : Char → Prop} [DecidablePred property]
    (tested : (text.all fun character => decide (property character)) = true) :
    ∀ character ∈ text, property character := by
  intro character member
  exact of_decide_eq_true (List.all_eq_true.mp tested character member)

/-- Lowercase, as far as a comparison with ASCII patterns can tell: besides the ASCII letters,
the Kelvin sign and the capital I with a dot have a lowercase form with an ASCII letter. -/
def lowercase (text : List Char) : List Char :=
  text.flatMap fun character =>
    if character.toNat = 0x212A then ['k']
    else if character.toNat = 0x130 then ['i', Char.ofNat 0x307]
    else [character.toLower]

def occurs (pattern text : List Char) : Bool :=
  text.tails.any pattern.isPrefixOf

theorem occurs_iff_infix (pattern text : List Char) :
    occurs pattern text = true ↔ pattern <:+: text := by
  rw [occurs, List.any_eq_true, List.infix_iff_prefix_suffix]
  simp only [List.mem_tails, List.isPrefixOf_iff_prefix]
  exact exists_congr fun rest => and_comm

theorem infix_separated_iff (absent : separator ∉ pattern) (left right : List Char) :
    pattern <:+: left ++ separator :: right ↔ pattern <:+: left ∨ pattern <:+: right := by
  constructor
  · intro occurrence
    rcases List.infix_append_iff.mp occurrence with
      inLeft | inRest | ⟨before, after, rfl, ends, starts⟩
    · exact .inl inLeft
    · rcases List.infix_cons_iff.mp inRest with starts | inRight
      · rcases List.prefix_cons_iff.mp starts with rfl | ⟨rest, rfl, _⟩
        · exact .inl List.nil_infix
        · exact absurd List.mem_cons_self absent
      · exact .inr inRight
    · rcases List.prefix_cons_iff.mp starts with rfl | ⟨rest, rfl, _⟩
      · exact .inl (by rw [List.append_nil]; exact ends.isInfix)
      · exact absurd (List.mem_append_right before List.mem_cons_self) absent
  · rintro (inLeft | inRight)
    · exact List.infix_append_of_infix_left inLeft
    · exact List.infix_append_of_infix_right (List.infix_cons inRight)

/-- The loop of replacing a pattern: characters of an occurrence still to be
skipped, and the rest of the text. -/
def replaceLoop (pattern replacement : List Char) : Nat → List Char → List Char
  | _, [] => []
  | skip + 1, _ :: rest => replaceLoop pattern replacement skip rest
  | 0, character :: rest =>
      if pattern.isPrefixOf (character :: rest) then
        replacement ++ replaceLoop pattern replacement (pattern.length - 1) rest
      else character :: replaceLoop pattern replacement 0 rest

theorem length_replaceLoop_le (pattern : List Char) (skip : Nat) (text : List Char) :
    (replaceLoop pattern [] skip text).length ≤ text.length := by
  induction text generalizing skip with
  | nil => rw [replaceLoop]
  | cons character rest induction =>
      cases skip with
      | succ skip => exact Nat.le_succ_of_le (induction skip)
      | zero =>
          rw [replaceLoop]
          split
          · exact Nat.le_succ_of_le (induction _)
          · exact Nat.succ_le_succ (induction 0)

theorem replaceLoop_nil_eq_self_iff {text : List Char} (shown : pattern ≠ []) :
    replaceLoop pattern [] 0 text = text ↔ ¬pattern <:+: text := by
  constructor
  · intro same occurs
    apply absurd (congrArg List.length same)
    apply Nat.ne_of_lt
    clear same
    induction text with
    | nil => exact absurd (List.infix_nil.mp occurs) shown
    | cons character rest induction =>
        rw [replaceLoop]
        split
        · exact Nat.lt_succ_of_le (length_replaceLoop_le pattern _ rest)
        · next elsewhere =>
            apply Nat.succ_lt_succ
            apply induction
            rcases List.infix_cons_iff.mp occurs with starts | inRest
            · exact absurd (List.isPrefixOf_iff_prefix.mpr starts) elsewhere
            · exact inRest
  · intro absent
    induction text with
    | nil => rw [replaceLoop]
    | cons character rest induction =>
        have elsewhere : ¬ pattern.isPrefixOf (character :: rest) = true := by
          intro starts
          exact absent (List.isPrefixOf_iff_prefix.mp starts).isInfix
        rw [replaceLoop, if_neg elsewhere,
          induction fun inside => absent (List.infix_cons inside)]

theorem replaceLoop_singleton (single : Char) (replacement text : List Char) :
    replaceLoop [single] replacement 0 text = text.flatMap fun character =>
      if character = single then replacement else [character] := by
  induction text with
  | nil => rfl
  | cons character text induction =>
      have tested : [single].isPrefixOf (character :: text) = true ↔ character = single := by
        rw [List.isPrefixOf_cons_cons, List.isPrefixOf_nil_left, Bool.and_true, beq_iff_eq]
        exact eq_comm
      rw [replaceLoop, List.flatMap_cons]
      by_cases same : character = single
      · rw [if_pos (tested.mpr same), if_pos same]
        exact congrArg (replacement ++ ·) induction
      · rw [if_neg (fun starts => same (tested.mp starts)), if_neg same, induction]
        rfl

def utf16Length (character : Char) : Nat :=
  if character.toNat < 0x10000 then 1 else 2

/-- The text after a number of UTF-16 code units. The second half of a pair that
is cut decodes to the replacement character. -/
def dropUtf16 : Nat → List Char → List Char
  | 0, text => text
  | _ + 1, [] => []
  | units + 1, character :: rest =>
      if utf16Length character ≤ units + 1 then
        dropUtf16 (units + 1 - utf16Length character) rest
      else Char.ofNat 0xFFFD :: rest

end Text

namespace String

def mentions (text pattern : String) : Bool :=
  Text.occurs pattern.toList text.toList

def mentionsAny (text : String) (patterns : List String) : Bool :=
  patterns.any fun pattern =>
    Text.occurs pattern.toList (Text.lowercase text.toList)

/-- Replaces every occurrence of a non-empty pattern, from left to right. -/
def substituted (text pattern replacement : String) : String :=
  String.ofList (Text.replaceLoop pattern.toList replacement.toList 0 text.toList)

def trimmed (text : String) : String :=
  String.ofList (Text.trim text.toList)

def isBlank (text : String) : Bool :=
  text.toList.all Text.isWhitespace

end String
