import HarnessAgent.Foundation.EventStream
import HarnessAgent.Foundation.Json

/-! # The grammar of JSON texts

The texts that JSON allows, as derivations, and what of them a search for marks can
rely on: outside of strings stand only the marks of the grammar, and a string is
closed on its own line.
-/

namespace HarnessAgent

namespace JsonGrammar

/-- White space between the tokens of a text. -/
def isBlank (character : Char) : Bool :=
  character == ' ' || character == '\t' || character == '\n' || character == '\r'

def Blank (text : List Char) : Prop :=
  ∀ character ∈ text, isBlank character = true

def isHexDigit (character : Char) : Bool :=
  Text.isAsciiDigit character || (0x41 ≤ character.toNat && character.toNat ≤ 0x46) ||
    (0x61 ≤ character.toNat && character.toNat ≤ 0x66)

inductive StringBody : List Char → Prop
  | empty : StringBody []
  | plain {character : Char} {rest : List Char} :
      0x20 ≤ character.toNat → character ≠ '"' → character ≠ '\\' → StringBody rest →
        StringBody (character :: rest)
  | escaped {character : Char} {rest : List Char} :
      character ∈ ['"', '\\', '/', 'b', 'f', 'n', 'r', 't'] → StringBody rest →
        StringBody ('\\' :: character :: rest)
  | unicode {digits rest : List Char} :
      digits.length = 4 → (∀ digit ∈ digits, isHexDigit digit = true) → StringBody rest →
        StringBody ('\\' :: 'u' :: (digits ++ rest))

def quoted (body : List Char) : List Char :=
  '"' :: (body ++ ['"'])

def Digits (text : List Char) : Prop :=
  text ≠ [] ∧ ∀ character ∈ text, Text.isAsciiDigit character = true

structure NumberParts where
  sign : List Char
  integer : List Char
  fraction : List Char
  exponent : List Char

namespace NumberParts

def text (parts : NumberParts) : List Char :=
  parts.sign ++ parts.integer ++ parts.fraction ++ parts.exponent

structure WellFormed (parts : NumberParts) : Prop where
  sign : parts.sign = [] ∨ parts.sign = ['-']
  integer : Digits parts.integer
  leading : parts.integer.head? = some '0' → parts.integer = ['0']
  fraction : parts.fraction = [] ∨
    ∃ digits, Digits digits ∧ parts.fraction = '.' :: digits
  exponent : parts.exponent = [] ∨
    ∃ mark sign digits, mark ∈ ['e', 'E'] ∧ sign ∈ [[], ['+'], ['-']] ∧ Digits digits ∧
      parts.exponent = mark :: (sign ++ digits)

end NumberParts

/-- What a derivation is about: an element and a member are a value and a pair with
the white space around them. -/
inductive Symbol
  | value
  | object
  | element
  | elements
  | member
  | members
  deriving DecidableEq, Repr

inductive Derives : Symbol → List Char → Prop
  | null : Derives .value ['n', 'u', 'l', 'l']
  | true : Derives .value ['t', 'r', 'u', 'e']
  | false : Derives .value ['f', 'a', 'l', 's', 'e']
  | number {parts : NumberParts} : parts.WellFormed → Derives .value parts.text
  | string {body : List Char} : StringBody body → Derives .value (quoted body)
  | emptyArray {blanks : List Char} : Blank blanks → Derives .value ('[' :: (blanks ++ [']']))
  | array {elements : List Char} : Derives .elements elements →
      Derives .value ('[' :: (elements ++ [']']))
  | ofObject {text : List Char} : Derives .object text → Derives .value text
  | emptyObject {blanks : List Char} : Blank blanks →
      Derives .object ('{' :: (blanks ++ ['}']))
  | object {members : List Char} : Derives .members members →
      Derives .object ('{' :: (members ++ ['}']))
  | element {before text after : List Char} : Blank before → Derives .value text →
      Blank after → Derives .element (before ++ text ++ after)
  | lastElement {text : List Char} : Derives .element text → Derives .elements text
  | elements {first rest : List Char} : Derives .element first → Derives .elements rest →
      Derives .elements (first ++ ',' :: rest)
  | member {before key between element : List Char} : Blank before → StringBody key →
      Blank between → Derives .element element →
        Derives .member (before ++ quoted key ++ between ++ ':' :: element)
  | lastMember {text : List Char} : Derives .member text → Derives .members text
  | members {first rest : List Char} : Derives .member first → Derives .members rest →
      Derives .members (first ++ ',' :: rest)

def IsObject (text : List Char) : Prop :=
  ∃ before inner after, Blank before ∧ Derives .object inner ∧ Blank after ∧
    text = before ++ inner ++ after

/-- A character that can stand outside of strings, white space included. -/
def isMark (character : Char) : Bool :=
  isBlank character || Text.isAsciiDigit character || Text.isAsciiLetter character ||
    ['{', '}', '[', ']', ':', ',', '+', '-', '.'].contains character

inductive Lexed : List Char → Prop
  | nil : Lexed []
  | mark {character : Char} {rest : List Char} : isMark character = true → Lexed rest →
      Lexed (character :: rest)
  | string {body rest : List Char} : StringBody body → Lexed rest →
      Lexed ('"' :: (body ++ '"' :: rest))

variable {character : Char}

theorem isMark_of_isBlank (blank : isBlank character = true) : isMark character = true := by
  simp [isMark, blank]

theorem isMark_of_isAsciiDigit (digit : Text.isAsciiDigit character = true) :
    isMark character = true := by
  simp [isMark, digit]

theorem lexed_of_marks {text : List Char}
    (marks : ∀ character ∈ text, isMark character = true) : Lexed text := by
  induction text with
  | nil => exact .nil
  | cons character rest induction =>
      apply Lexed.mark
      · exact marks character List.mem_cons_self
      · exact induction fun other member => marks other (List.mem_cons_of_mem character member)

theorem lexed_of_blank {text : List Char} (blank : Blank text) : Lexed text :=
  lexed_of_marks fun character member => isMark_of_isBlank (blank character member)

theorem lexed_of_digits {text : List Char} (digits : Digits text) : Lexed text :=
  lexed_of_marks fun character member => isMark_of_isAsciiDigit (digits.2 character member)

theorem Lexed.append (first : Lexed left) (later : Lexed right) : Lexed (left ++ right) := by
  induction first with
  | nil => exact later
  | mark mark _ induction => exact .mark mark induction
  | string body _ induction =>
      rw [List.cons_append, List.append_assoc, List.cons_append]
      exact .string body induction

theorem lexed_quoted (string : StringBody body) : Lexed (quoted body) :=
  .string string .nil

theorem NumberParts.WellFormed.lexed {parts : NumberParts} (formed : parts.WellFormed) :
    Lexed parts.text := by
  have sign : Lexed parts.sign := by
    rcases formed.sign with absent | minus
    · rw [absent]
      exact .nil
    · rw [minus]
      exact .mark rfl .nil
  have fraction : Lexed parts.fraction := by
    rcases formed.fraction with absent | ⟨digits, shown, split⟩
    · rw [absent]
      exact .nil
    · rw [split]
      exact .mark rfl (lexed_of_digits shown)
  have exponent : Lexed parts.exponent := by
    rcases formed.exponent with absent | ⟨mark, sign, digits, isExponent, isSign, shown, split⟩
    · rw [absent]
      exact .nil
    · rw [split]
      have letter : isMark mark = true := by
        rcases List.mem_pair.mp isExponent with rfl | rfl
        · rfl
        · rfl
      have signed : Lexed sign := by
        apply lexed_of_marks
        simp only [List.mem_cons, List.not_mem_nil, or_false] at isSign
        rcases isSign with rfl | rfl | rfl
        · exact List.forall_mem_nil _
        · exact List.forall_mem_singleton.mpr rfl
        · exact List.forall_mem_singleton.mpr rfl
      exact .mark letter (signed.append (lexed_of_digits shown))
  exact ((sign.append (lexed_of_digits formed.integer)).append fraction).append exponent

theorem Derives.lexed {symbol : Symbol} {text : List Char} (derives : Derives symbol text) :
    Lexed text := by
  induction derives with
  | null => exact lexed_of_marks (Text.forall_of_all rfl)
  | true => exact lexed_of_marks (Text.forall_of_all rfl)
  | false => exact lexed_of_marks (Text.forall_of_all rfl)
  | number formed => exact formed.lexed
  | string body => exact lexed_quoted body
  | emptyArray blank => exact .mark rfl ((lexed_of_blank blank).append (.mark rfl .nil))
  | array _ induction => exact .mark rfl (induction.append (.mark rfl .nil))
  | ofObject _ induction => exact induction
  | emptyObject blank => exact .mark rfl ((lexed_of_blank blank).append (.mark rfl .nil))
  | object _ induction => exact .mark rfl (induction.append (.mark rfl .nil))
  | element before _ after induction =>
      exact ((lexed_of_blank before).append induction).append (lexed_of_blank after)
  | lastElement _ induction => exact induction
  | elements _ _ first rest => exact first.append (.mark rfl rest)
  | member before key between _ induction =>
      exact (((lexed_of_blank before).append (lexed_quoted key)).append
        (lexed_of_blank between)).append (.mark rfl induction)
  | lastMember _ induction => exact induction
  | members _ _ first rest => exact first.append (.mark rfl rest)

theorem IsObject.lexed {text : List Char} (object : IsObject text) : Lexed text := by
  rcases object with ⟨before, inner, after, blankBefore, derives, blankAfter, rfl⟩
  exact ((lexed_of_blank blankBefore).append derives.lexed).append (lexed_of_blank blankAfter)

theorem StringBody.printable (string : StringBody body) :
    ∀ character ∈ body, 0x20 ≤ character.toNat := by
  induction string with
  | empty => exact List.forall_mem_nil _
  | plain shown _ _ _ induction => exact List.forall_mem_cons.mpr ⟨shown, induction⟩
  | escaped escape _ induction =>
      refine List.forall_mem_cons.mpr ⟨by decide, List.forall_mem_cons.mpr ⟨?_, induction⟩⟩
      have all : ∀ character ∈ ['"', '\\', '/', 'b', 'f', 'n', 'r', 't'],
          0x20 ≤ character.toNat := Text.forall_of_all rfl
      exact all _ escape
  | unicode _ digits _ induction =>
      refine List.forall_mem_cons.mpr ⟨by decide, List.forall_mem_cons.mpr ⟨by decide, ?_⟩⟩
      refine List.forall_mem_append.mpr ⟨fun digit member => ?_, induction⟩
      have hexadecimal := digits digit member
      simp only [isHexDigit, Text.isAsciiDigit, Bool.or_eq_true, Bool.and_eq_true,
        decide_eq_true_eq] at hexadecimal
      omega

theorem Lexed.cut (lexed : Lexed (before ++ character :: after)) (notQuote : character ≠ '"') :
    (isMark character = true ∧ Lexed after) ∨
      ∃ body rest, after = body ++ '"' :: rest ∧
        ∀ inside ∈ character :: body, 0x20 ≤ inside.toNat := by
  generalize whole : before ++ character :: after = text at lexed
  induction lexed generalizing before with
  | nil => exact absurd whole (by simp)
  | @mark first rest mark lexed induction =>
      cases before with
      | nil =>
          cases whole
          exact .inl ⟨mark, lexed⟩
      | cons _ before =>
          cases whole
          exact induction rfl
  | @string body rest string _ induction =>
      cases before with
      | nil =>
          cases whole
          exact absurd rfl notQuote
      | cons _ before =>
          have inner : before ++ character :: after = body ++ '"' :: rest :=
            (List.cons.inj whole).2
          rcases List.append_eq_append_iff.mp inner with
            ⟨more, split, later⟩ | ⟨more, split, later⟩
          · cases more with
            | nil =>
                cases later
                exact absurd rfl notQuote
            | cons _ more =>
                cases later
                refine .inr ⟨more, rest, rfl, fun inside member => string.printable inside ?_⟩
                rw [split]
                exact List.mem_append_right before member
          · cases more with
            | nil =>
                cases later
                exact absurd rfl notQuote
            | cons _ more =>
                cases later
                exact induction rfl

theorem Lexed.closed (lexed : Lexed (before ++ character :: after))
    (other : isMark character = false) (notQuote : character ≠ '"') :
    ∃ body rest, after = body ++ '"' :: rest ∧ ∀ inside ∈ body, 0x20 ≤ inside.toNat := by
  rcases lexed.cut notQuote with ⟨mark, -⟩ | ⟨body, rest, same, printable⟩
  · exact absurd mark (by simp [other])
  · exact ⟨body, rest, same, (List.forall_mem_cons.mp printable).2⟩

/-- A line break stands between tokens. -/
theorem Lexed.after_newline (lexed : Lexed (before ++ '\n' :: after)) : Lexed after := by
  rcases lexed.cut (by decide) with ⟨-, rest⟩ | ⟨body, rest, -, printable⟩
  · exact rest
  · exact absurd (printable _ List.mem_cons_self) (by decide)

/-- After white space of any kind comes a mark or a string. -/
theorem Lexed.head_trimStart {text : List Char} (lexed : Lexed text) :
    ∀ character ∈ (Text.trimStart text).head?, character = '"' ∨ isMark character = true := by
  induction lexed with
  | nil => exact fun _ member => absurd member (by simp [Text.trimStart])
  | @mark first rest mark _ induction =>
      rw [Text.trimStart, List.dropWhile_cons]
      split
      · exact induction
      · intro character member
        cases member
        exact .inr mark
  | @string body rest string _ _ =>
      intro character member
      cases member
      exact .inl rfl

theorem isWhitespace_of_isBlank (blank : isBlank character = true) :
    Text.isWhitespace character = true := by
  simp only [isBlank, Bool.or_eq_true, beq_iff_eq] at blank
  rcases blank with ((rfl | rfl) | rfl) | rfl <;> rfl

theorem Blank.text {text : List Char} (blank : Blank text) : Text.Blank text :=
  fun character member => isWhitespace_of_isBlank (blank character member)

theorem Derives.braces {text : List Char} (derives : Derives .object text) :
    ∃ inner, text = '{' :: (inner ++ ['}']) := by
  cases derives with
  | emptyObject _ => exact ⟨_, rfl⟩
  | object _ => exact ⟨_, rfl⟩

theorem IsObject.blank_front {front rest : List Char} (object : IsObject (front ++ '{' :: rest))
    (noBrace : '{' ∉ front) : Blank front := by
  rcases object with ⟨before, inner, after, blank, derives, -, split⟩
  rcases derives.braces with ⟨body, rfl⟩
  rw [List.append_assoc] at split
  rcases List.append_eq_append_iff.mp split with ⟨more, rfl, later⟩ | ⟨more, rfl, later⟩
  · intro character member
    exact blank character (List.mem_append_left more member)
  · cases more with
    | nil =>
        rw [List.append_nil]
        exact blank
    | cons first more =>
        cases (List.cons.inj later).1
        exact absurd (List.mem_append_right before List.mem_cons_self) noBrace

end JsonGrammar

structure SerdeJson.ReadsObjects (serde : SerdeJson) : Prop where
  accepts : ∀ text members, serde.fromStr (String.ofList text) = some (.object members) →
    JsonGrammar.IsObject text
  blank : ∀ before text after, JsonGrammar.Blank before → JsonGrammar.Blank after →
    serde.fromStr (String.ofList (before ++ text ++ after)) =
      serde.fromStr (String.ofList text)

def SerdeJson.knowing (text : List Char) (members : Members) : SerdeJson where
  toString _ := String.ofList text
  fromStr given :=
    if Text.strip JsonGrammar.isBlank given.toList = text then some (.object members) else none

theorem SerdeJson.knowing_fromStr (text : List Char) (members : Members) (given : List Char) :
    (knowing text members).fromStr (String.ofList given) =
      if Text.strip JsonGrammar.isBlank given = text then some (.object members) else none := by
  change (if Text.strip JsonGrammar.isBlank (String.ofList given).toList = text then _ else _) = _
  rw [String.toList_ofList]

theorem SerdeJson.readsObjects_knowing {text : List Char}
    (object : JsonGrammar.Derives .object text) (members : Members) :
    (knowing text members).ReadsObjects where
  accepts := by
    intro given found read
    have stripped : Text.strip JsonGrammar.isBlank given = text := by
      by_contra other
      rw [knowing_fromStr, if_neg other] at read
      cases read
    rcases Text.exists_strip JsonGrammar.isBlank given with ⟨before, after, front, back, split⟩
    rw [stripped] at split
    exact ⟨before, text, after, front, object, back, split⟩
  blank := by
    intro before given after front back
    rw [knowing_fromStr, knowing_fromStr, Text.strip_append_of_blank back,
      Text.strip_of_blank_append front]

end HarnessAgent
