import HarnessAgent.Foundation.DottedKeys
import HarnessAgent.Foundation.JsonText
import HarnessAgent.Foundation.SealedText
import HarnessAgent.Foundation.Uuid
import Mathlib.Data.List.Forall2

/-! # Reading TOML

The part of TOML in which a value stands on one line: basic strings, numbers, booleans,
arrays and inline tables, and definitions with dotted keys. Literal strings and dates are
left out. What number a text is, is a parameter.
-/

namespace HarnessAgent

namespace Toml

/-! ## Characters -/

def isBareCharacter (character : Char) : Bool :=
  character.isAlphanum || character == '_' || character == '-'

def isBlank (character : Char) : Bool :=
  character == ' ' || character == '\t'

/-- Neither a control character, the tab aside, nor the one that ends ASCII. -/
def isPrintable (character : Char) : Bool :=
  character == '\t' || (0x20 ≤ character.toNat && character.toNat ≠ 0x7F)

def isScalarCharacter (character : Char) : Bool :=
  character.isAlphanum || character == '+' || character == '-' || character == '.' ||
    character == '_'

def skipBlanks (text : List Char) : List Char :=
  text.dropWhile isBlank

def expected (wanted : Char) (text : List Char) : Option (List Char) :=
  match skipBlanks text with
  | [] => none
  | first :: rest => if first = wanted then some rest else none

/-! ## Strings -/

/-- Where the reader of a string stands: between two characters, behind a backslash, or in
a number, with the digits that follow the next one. -/
inductive Mode
  | between
  | escape
  | digits (more value : Nat)

def simpleEscape (character : Char) : Option Char :=
  if character = 'b' then some (Char.ofNat 0x08)
  else if character = 't' then some (Char.ofNat 0x09)
  else if character = 'n' then some (Char.ofNat 0x0A)
  else if character = 'f' then some (Char.ofNat 0x0C)
  else if character = 'r' then some (Char.ofNat 0x0D)
  else if character = '"' then some '"'
  else if character = '\\' then some '\\'
  else none

def pushed (character : Char) (read : Option (List Char × List Char)) :
    Option (List Char × List Char) :=
  read.map fun result => (character :: result.1, result.2)

/-- A basic string behind its opening quote, and what follows its closing one. -/
def readBasic : Mode → List Char → Option (List Char × List Char)
  | _, [] => none
  | .between, first :: rest =>
      if first = '"' then some ([], rest)
      else if first = '\\' then readBasic .escape rest
      else if isPrintable first then pushed first (readBasic .between rest)
      else none
  | .escape, first :: rest =>
      match simpleEscape first with
      | some meant => pushed meant (readBasic .between rest)
      | none =>
          if first = 'u' then readBasic (.digits 3 0) rest
          else if first = 'U' then readBasic (.digits 7 0) rest
          else none
  | .digits more value, first :: rest =>
      match Text.hexDigit first, more with
      | none, _ => none
      | some digit, 0 =>
          if (16 * value + digit).isValidChar then
            pushed (Char.ofNat (16 * value + digit)) (readBasic .between rest)
          else none
      | some digit, more + 1 => readBasic (.digits more (16 * value + digit)) rest

/-! ## Keys -/

def readSimpleKey : List Char → Option (String × List Char)
  | '"' :: rest => (readBasic .between rest).map fun read => (String.ofList read.1, read.2)
  | text =>
      if text.takeWhile isBareCharacter = [] then none
      else some (String.ofList (text.takeWhile isBareCharacter), text.dropWhile isBareCharacter)

def readKey : Nat → List Char → Option (List String × List Char)
  | 0, _ => none
  | parts + 1, text =>
      (readSimpleKey text).bind fun first =>
        match expected '.' first.2 with
        | none => some ([first.1], first.2)
        | some rest => (readKey parts (skipBlanks rest)).map fun read => (first.1 :: read.1, read.2)

/-! ## Values -/

variable (readNumber : List Char → Option Number)

def readScalar (text : List Char) : Option (Value × List Char) :=
  let token := text.takeWhile isScalarCharacter
  let rest := text.dropWhile isScalarCharacter
  if token = ['t', 'r', 'u', 'e'] then some (.bool true, rest)
  else if token = ['f', 'a', 'l', 's', 'e'] then some (.bool false, rest)
  else (readNumber token).map fun number => (.number number, rest)

def readDefinition (readValue : List Char → Option (Value × List Char)) (text : List Char) :
    Option (DottedKeys.Definition × List Char) :=
  (readKey text.length text).bind fun key =>
    (expected '=' key.2).bind fun rest =>
      (readValue (skipBlanks rest)).map fun read => ((key.1, read.1), read.2)

mutual
/-- A value and what follows it. A character is looked at twice at most, as the first one of
an item and as that of a value. -/
def readValue : Nat → List Char → Option (Value × List Char)
  | 0, _ => none
  | fuel + 1, text =>
      match text with
      | '"' :: rest => (readBasic .between rest).map fun read =>
          (.string (String.ofList read.1), read.2)
      | '[' :: rest => (readItems fuel rest).map fun read => (.array read.1, read.2)
      | '\x7b' :: rest =>
          match expected '\x7d' rest with
          | some rest => some (.object [], rest)
          | none => (readDefinitions fuel rest).bind fun read =>
              (DottedKeys.tableOf read.1).map fun table => (.object table, read.2)
      | _ => readScalar readNumber text

def readItems : Nat → List Char → Option (List Value × List Char)
  | 0, _ => none
  | fuel + 1, text =>
      match expected ']' text with
      | some rest => some ([], rest)
      | none => (readValue fuel (skipBlanks text)).bind fun first =>
          match expected ',' first.2 with
          | some rest => (readItems fuel rest).map fun read => (first.1 :: read.1, read.2)
          | none => (expected ']' first.2).map fun rest => ([first.1], rest)

/-- The definitions of an inline table behind its brace or a comma. -/
def readDefinitions : Nat → List Char → Option (List DottedKeys.Definition × List Char)
  | 0, _ => none
  | fuel + 1, text =>
      (readDefinition (readValue fuel) (skipBlanks text)).bind fun first =>
        match expected ',' first.2 with
        | some rest => (readDefinitions fuel rest).map fun read => (first.1 :: read.1, read.2)
        | none => (expected '\x7d' first.2).map fun rest => ([first.1], rest)
end

def readLine (text : List Char) : Option DottedKeys.Definition :=
  (readDefinition (readValue readNumber (2 * text.length)) (skipBlanks text)).bind fun read =>
    if skipBlanks read.2 = [] then some read.1 else none

def readLines (lines : List (List Char)) : Option Members :=
  (lines.mapM (readLine readNumber)).bind DottedKeys.tableOf

/-! ## Blanks -/

theorem skipBlanks_blank (text : List Char) : skipBlanks (' ' :: text) = skipBlanks text := rfl

theorem skipBlanks_of_starts (shown : isBlank first = false) (rest : List Char) :
    skipBlanks (first :: rest) = first :: rest := by
  rw [skipBlanks, List.dropWhile_cons_of_neg (by rw [shown]; exact Bool.false_ne_true)]

theorem expected_blank (wanted : Char) (text : List Char) :
    expected wanted (' ' :: text) = expected wanted text := rfl

theorem expected_self (shown : isBlank wanted = false) (rest : List Char) :
    expected wanted (wanted :: rest) = some rest := by
  rw [expected, skipBlanks_of_starts shown]
  exact if_pos rfl

theorem expected_of_ne (shown : isBlank first = false) (other : first ≠ wanted) (rest : List Char) :
    expected wanted (first :: rest) = none := by
  rw [expected, skipBlanks_of_starts shown]
  exact if_neg other

def StopsAt (inside : Char → Bool) (rest : List Char) : Prop :=
  ∀ first ∈ rest.head?, inside first = false

theorem stopsAt_nil (inside : Char → Bool) : StopsAt inside [] :=
  nofun

theorem stopsAt_cons {inside : Char → Bool} {first : Char} (other : inside first = false)
    (rest : List Char) : StopsAt inside (first :: rest) := by
  rintro _ ⟨⟩
  exact other

variable {rest : List Char} {inside : Char → Bool}

theorem span_of_stopsAt (within : ∀ character ∈ token, inside character = true)
    (stops : StopsAt inside rest) :
    (token ++ rest).takeWhile inside = token ∧ (token ++ rest).dropWhile inside = rest := by
  rcases Text.Finder.span_append stops token with ⟨taken, dropped⟩
  rw [taken, dropped, List.takeWhile_eq_self_iff.mpr within, List.dropWhile_eq_nil_iff.mpr within]
  exact ⟨rfl, rfl⟩

variable {character : Char}

theorem ne_of_classes (within : inside character = true) (outside : inside other = false) :
    character ≠ other := by
  rintro rfl
  rw [within] at outside
  cases outside

theorem not_blank_of_class (within : inside character = true) (blank : inside ' ' = false)
    (tab : inside '\t' = false) : isBlank character = false := by
  rw [← Bool.not_eq_true, isBlank, Bool.or_eq_true, beq_iff_eq, beq_iff_eq, not_or]
  exact ⟨ne_of_classes within blank, ne_of_classes within tab⟩

/-! ## Rules for strings -/

theorem readBasic_printable (printable : isPrintable character = true) (quote : character ≠ '"')
    (backslash : character ≠ '\\') (rest : List Char) :
    readBasic .between (character :: rest) = pushed character (readBasic .between rest) := by
  rw [readBasic, if_neg quote, if_neg backslash, if_pos printable]

theorem readBasic_escape (means : simpleEscape letter = some meant) (rest : List Char) :
    readBasic .between ('\\' :: letter :: rest) = pushed meant (readBasic .between rest) := by
  rw [readBasic, if_neg (by decide), if_pos rfl, readBasic, means]

theorem hexDigit_hexDigit (digit : Fin 16) :
    Text.hexDigit (JsonText.hexDigit digit) = some digit := by
  revert digit
  decide

theorem readBasic_number {number : Nat} (small : number < 256) (rest : List Char) :
    readBasic .between ('\\' :: 'u' :: '0' :: '0' :: JsonText.hexDigit (number / 16) ::
      JsonText.hexDigit (number % 16) :: rest) =
        pushed (Char.ofNat number) (readBasic .between rest) := by
  have high := hexDigit_hexDigit ⟨number / 16, by omega⟩
  have low := hexDigit_hexDigit ⟨number % 16, by omega⟩
  have zero : Text.hexDigit '0' = some 0 := by decide
  have whole : 16 * (number / 16) + number % 16 = number := by omega
  have valid : number.isValidChar := .inl (by omega)
  simp only at high low
  rw [readBasic, if_neg (by decide), if_pos rfl, readBasic]
  simp [readBasic, simpleEscape, zero, high, low, whole, valid]

variable {text : List Char}

theorem readBasic_flatMap
    (reads : ∀ character ∈ text, ∀ rest, readBasic .between (written character ++ rest) =
      pushed character (readBasic .between rest)) (rest : List Char) :
    readBasic .between (text.flatMap written ++ '"' :: rest) = some (text, rest) := by
  induction text with
  | nil => rfl
  | cons character text induction =>
      rw [List.forall_mem_cons] at reads
      rw [List.flatMap_cons, List.append_assoc, reads.1, induction reads.2]
      rfl

theorem readBasic_escaped (shown : character ≠ Char.ofNat 0x7F) (rest : List Char) :
    readBasic .between (JsonText.escaped character ++ rest) =
      pushed character (readBasic .between rest) := by
  have lettered {code : Nat} (same : character.toNat = code) {letter : Char}
      (means : simpleEscape letter = some (Char.ofNat code)) :
      readBasic .between (['\\', letter] ++ rest) = pushed character (readBasic .between rest) := by
    rw [← same, Char.ofNat_toNat] at means
    exact readBasic_escape means rest
  unfold JsonText.escaped
  split
  · next same =>
      rw [same]
      exact readBasic_escape rfl rest
  split
  · next same =>
      rw [same]
      exact readBasic_escape rfl rest
  split
  · next same => exact lettered same rfl
  split
  · next same => exact lettered same rfl
  split
  · next same => exact lettered same rfl
  split
  · next same => exact lettered same rfl
  split
  · next same => exact lettered same rfl
  split
  · next control =>
      have number := @readBasic_number character.toNat (by omega) rest
      rw [Char.ofNat_toNat] at number
      exact number
  · next quote backslash _ _ _ _ _ high =>
      apply readBasic_printable _ quote backslash
      have other : character.toNat ≠ 0x7F := by
        intro same
        apply shown
        rw [← same, Char.ofNat_toNat]
      simp only [isPrintable, other, ne_eq, not_false_eq_true, decide_true, Bool.and_true,
        Bool.or_eq_true, decide_eq_true_eq]
      omega

/-! ## Rules for keys -/

structure ReadsKey (text : List Char) (key : String) : Prop where
  starts : ∃ first tail, text = first :: tail ∧ isBlank first = false ∧ first ≠ '\x7d'
  reads : ∀ rest, StopsAt isBareCharacter rest → readSimpleKey (text ++ rest) = some (key, rest)

variable {key : String}

theorem readsKey_bare (some : key ≠ "")
    (bare : ∀ character ∈ key.toList, isBareCharacter character = true) :
    ReadsKey key.toList key := by
  have filled : key.toList ≠ [] := by simpa using some
  constructor
  · cases start : key.toList with
    | nil => exact absurd start filled
    | cons first tail =>
        have shown : isBareCharacter first = true := by
          apply bare
          rw [start]
          exact List.mem_cons_self
        exact ⟨first, tail, rfl, not_blank_of_class shown (by decide) (by decide),
          ne_of_classes shown (by decide)⟩
  · intro rest stops
    rcases span_of_stopsAt bare stops with ⟨taken, dropped⟩
    unfold readSimpleKey
    split
    · next quoted same =>
        cases start : key.toList with
        | nil => exact absurd start filled
        | cons first tail =>
            have shown : isBareCharacter first = true := by
              apply bare
              rw [start]
              exact List.mem_cons_self
            rw [start, List.cons_append, List.cons.injEq] at same
            exact absurd same.1 (ne_of_classes shown (by decide))
    · rw [taken, dropped, if_neg filled, String.ofList_toList]

theorem readsKey_quoted
    (reads : ∀ character ∈ key.toList, ∀ rest, readBasic .between (written character ++ rest) =
      pushed character (readBasic .between rest)) :
    ReadsKey ('"' :: key.toList.flatMap written ++ ['"']) key where
  starts := ⟨'"', _, rfl, by decide, by decide⟩
  reads rest stops := by
    rw [List.append_assoc, List.cons_append, readSimpleKey, List.singleton_append,
      readBasic_flatMap reads, Option.map_some, String.ofList_toList]

theorem ReadsKey.skipBlanks (reads : ReadsKey text key) (rest : List Char) :
    skipBlanks (text ++ rest) = text ++ rest := by
  rcases reads.starts with ⟨first, tail, rfl, shown, -⟩
  exact skipBlanks_of_starts shown _

theorem ReadsKey.skipBlanks_intercalate (reads : ReadsKey text key) (texts : List (List Char))
    (rest : List Char) :
    Toml.skipBlanks (['.'].intercalate (text :: texts) ++ rest) =
      ['.'].intercalate (text :: texts) ++ rest := by
  cases texts with
  | nil =>
      rw [List.intercalate_singleton]
      exact reads.skipBlanks rest
  | cons next texts =>
      rw [List.intercalate_cons_cons, List.append_assoc, List.append_assoc]
      exact reads.skipBlanks _

theorem ReadsKey.length_pos (reads : ReadsKey text key) : 0 < text.length := by
  rcases reads.starts with ⟨first, tail, rfl, -, -⟩
  exact Nat.succ_pos _

theorem readKey_last (reads : ReadsKey text key) (stops : StopsAt isBareCharacter rest)
    (ends : expected '.' rest = none) {parts : Nat} (enough : 0 < parts) :
    readKey parts (text ++ rest) = some ([key], rest) := by
  cases parts with
  | zero => cases enough
  | succ parts =>
      rw [readKey, reads.reads rest stops, Option.bind_some]
      dsimp only
      rw [ends]

theorem readKey_dotted (reads : List.Forall₂ ReadsKey texts keys) (some : texts ≠ [])
    (stops : StopsAt isBareCharacter rest) (ends : expected '.' rest = none) {parts : Nat}
    (enough : (['.'].intercalate texts ++ rest).length ≤ parts) :
    readKey parts (['.'].intercalate texts ++ rest) = .some (keys, rest) := by
  induction reads generalizing parts with
  | nil => exact absurd rfl some
  | @cons text key texts keys first others induction =>
      have filled := first.length_pos
      cases others with
      | nil =>
          rw [List.intercalate_singleton] at enough ⊢
          rw [List.length_append] at enough
          exact readKey_last first stops ends (by omega)
      | @cons next nextKey texts keys second others =>
          rw [List.intercalate_cons_cons, List.append_assoc, List.append_assoc,
            List.singleton_append] at enough ⊢
          rw [List.length_append, List.length_cons] at enough
          cases parts with
          | zero => omega
          | succ parts =>
              have dot : StopsAt isBareCharacter
                  ('.' :: (['.'].intercalate (next :: texts) ++ rest)) :=
                stopsAt_cons (by decide) _
              rw [readKey, first.reads _ dot, Option.bind_some]
              dsimp only
              rw [expected_self (by decide)]
              dsimp only
              rw [second.skipBlanks_intercalate, induction (List.cons_ne_nil _ _) (by omega),
                Option.map_some]

/-! ## Rules for values -/

variable {readNumber}

structure Reads (readNumber : List Char → Option Number) (text : List Char) (value : Value) :
    Prop where
  starts : ∃ first tail, text = first :: tail ∧ isBlank first = false ∧ first ≠ ']'
  reads : ∀ fuel rest, StopsAt isScalarCharacter rest → 2 * (text ++ rest).length ≤ fuel →
    readValue readNumber fuel (text ++ rest) = some (value, rest)

theorem Reads.skipBlanks (reads : Reads readNumber text value) (rest : List Char) :
    skipBlanks (text ++ rest) = text ++ rest := by
  rcases reads.starts with ⟨first, tail, rfl, shown, -⟩
  exact skipBlanks_of_starts shown _

variable {value : Value}

theorem Reads.not_closed (reads : Reads readNumber text value) (rest : List Char) :
    expected ']' (text ++ rest) = none := by
  rcases reads.starts with ⟨first, tail, rfl, shown, other⟩
  exact expected_of_ne shown other _

theorem reads_string {body text : List Char}
    (reads : ∀ rest, readBasic .between (body ++ '"' :: rest) = some (text, rest)) :
    Reads readNumber ('"' :: body ++ ['"']) (.string (String.ofList text)) where
  starts := ⟨'"', _, rfl, by decide, by decide⟩
  reads fuel rest _ enough := by
    cases fuel with
    | zero => simp at enough
    | succ fuel =>
        rw [List.append_assoc, List.cons_append, readValue, List.singleton_append, reads,
          Option.map_some]

structure ScalarText (text : List Char) : Prop where
  filled : text ≠ []
  scalar : ∀ character ∈ text, isScalarCharacter character = true

theorem readValue_scalar (scalar : ScalarText text) (fuel : Nat) :
    readValue readNumber (fuel + 1) (text ++ rest) = readScalar readNumber (text ++ rest) := by
  rcases scalar with ⟨filled, scalar⟩
  cases text with
  | nil => exact absurd rfl filled
  | cons first tail =>
      have shown := scalar first List.mem_cons_self
      rw [List.cons_append, readValue]
      all_goals
        rintro _ same
        cases same
        cases shown

theorem reads_scalar (scalar : ScalarText text) (reads : ∀ rest, StopsAt isScalarCharacter rest →
      readScalar readNumber (text ++ rest) = some (value, rest)) : Reads readNumber text value := by
  have filled := List.length_pos_iff.mpr scalar.filled
  constructor
  · cases start : text with
    | nil => exact absurd start scalar.filled
    | cons first tail =>
        have shown : isScalarCharacter first = true := by
          apply scalar.scalar
          rw [start]
          exact List.mem_cons_self
        exact ⟨first, tail, rfl, not_blank_of_class shown (by decide) (by decide),
          ne_of_classes shown (by decide)⟩
  · intro fuel rest stops enough
    cases fuel with
    | zero =>
        rw [List.length_append] at enough
        omega
    | succ fuel =>
        rw [readValue_scalar scalar]
        exact reads rest stops

theorem readScalar_token (scalar : ScalarText text) (stops : StopsAt isScalarCharacter rest) :
    readScalar readNumber (text ++ rest) =
      if text = ['t', 'r', 'u', 'e'] then some (.bool true, rest)
      else if text = ['f', 'a', 'l', 's', 'e'] then some (.bool false, rest)
      else (readNumber text).map fun number => (.number number, rest) := by
  rcases span_of_stopsAt scalar.scalar stops with ⟨taken, dropped⟩
  rw [readScalar, taken, dropped]

theorem reads_true : Reads readNumber ['t', 'r', 'u', 'e'] (.bool true) := by
  have scalar : ScalarText ['t', 'r', 'u', 'e'] := ⟨by decide, List.all_eq_true.mp rfl⟩
  apply reads_scalar scalar
  intro rest stops
  rw [readScalar_token scalar stops]
  rfl

theorem reads_false : Reads readNumber ['f', 'a', 'l', 's', 'e'] (.bool false) := by
  have scalar : ScalarText ['f', 'a', 'l', 's', 'e'] := ⟨by decide, List.all_eq_true.mp rfl⟩
  apply reads_scalar scalar
  intro rest stops
  rw [readScalar_token scalar stops]
  rfl

def isNumberText (readNumber : List Char → Option Number) (text : List Char) (number : Number) :
    Bool :=
  text ≠ [] && text.all isScalarCharacter && text ≠ ['t', 'r', 'u', 'e'] &&
    text ≠ ['f', 'a', 'l', 's', 'e'] && readNumber text = some number

theorem reads_number (stands : isNumberText readNumber text number = true) :
    Reads readNumber text (.number number) := by
  simp only [isNumberText, Bool.and_eq_true, decide_eq_true_eq, List.all_eq_true] at stands
  rcases stands with ⟨⟨⟨⟨filled, scalar⟩, notTrue⟩, notFalse⟩, reads⟩
  have scalarText : ScalarText text := ⟨filled, scalar⟩
  apply reads_scalar scalarText
  intro rest stops
  rw [readScalar_token scalarText stops, if_neg notTrue, if_neg notFalse, reads]
  rfl

/-! ### Arrays -/

def listed (parts : List (List Char)) : List Char :=
  [',', ' '].intercalate parts

theorem listed_singleton (part : List Char) : listed [part] = part :=
  List.intercalate_singleton

theorem listed_cons_cons (part next : List Char) (parts : List (List Char)) (rest : List Char) :
    listed (part :: next :: parts) ++ rest =
      part ++ ',' :: ' ' :: (listed (next :: parts) ++ rest) := by
  rw [listed, List.intercalate_cons_cons]
  simp [listed]

theorem readItems_blank (fuel : Nat) (text : List Char) :
    readItems readNumber fuel (' ' :: text) = readItems readNumber fuel text := by
  cases fuel with
  | zero => rw [readItems, readItems]
  | succ fuel => rw [readItems, readItems, expected_blank, skipBlanks_blank]

variable {parts : List (List Char)}

theorem readItems_listed {items : List Value} (reads : List.Forall₂ (Reads readNumber) parts items)
    (filled : parts ≠ []) {fuel : Nat}
    (enough : 2 * (listed parts ++ ']' :: rest).length + 1 ≤ fuel) :
    readItems readNumber fuel (listed parts ++ ']' :: rest) = some (items, rest) := by
  induction reads generalizing fuel with
  | nil => exact absurd rfl filled
  | @cons part item parts items first others induction =>
      cases fuel with
      | zero => omega
      | succ fuel =>
          cases others with
          | nil =>
              rw [listed_singleton] at enough ⊢
              have closed := @stopsAt_cons isScalarCharacter ']' (by decide) rest
              rw [readItems, first.not_closed, first.skipBlanks]
              dsimp only
              rw [first.reads fuel _ closed (by omega), Option.bind_some]
              dsimp only
              rw [expected_of_ne (by decide) (by decide), expected_self (by decide)]
              rfl
          | @cons next nextItem parts items second others =>
              rw [listed_cons_cons] at enough ⊢
              have comma := @stopsAt_cons isScalarCharacter ',' (by decide)
                (' ' :: (listed (next :: parts) ++ ']' :: rest))
              rw [readItems, first.not_closed, first.skipBlanks]
              dsimp only
              rw [first.reads fuel _ comma (by omega), Option.bind_some]
              dsimp only
              rw [expected_self (by decide)]
              dsimp only
              rw [List.length_append, List.length_cons, List.length_cons] at enough
              rw [readItems_blank, induction (List.cons_ne_nil _ _) (by omega)]
              rfl

theorem reads_array (reads : List.Forall₂ (Reads readNumber) parts items) :
    Reads readNumber ('[' :: listed parts ++ [']']) (.array items) where
  starts := ⟨'[', _, rfl, by decide, by decide⟩
  reads fuel rest _ enough := by
    have whole : '[' :: listed parts ++ [']'] ++ rest = '[' :: (listed parts ++ ']' :: rest) := by
      simp
    rw [whole] at enough ⊢
    rw [List.length_cons] at enough
    cases fuel with
    | zero => omega
    | succ fuel =>
        cases reads with
        | nil =>
            cases fuel with
            | zero => omega
            | succ fuel => rfl
        | cons first others =>
            rw [readValue, readItems_listed (.cons first others) (List.cons_ne_nil _ _) (by omega)]
            rfl

/-! ### Inline tables -/

def ReadsMember (readNumber : List Char → Option Number) (text : List Char)
    (member : String × Value) : Prop :=
  ∃ key value, text = key ++ ' ' :: '=' :: ' ' :: value ∧ ReadsKey key member.1 ∧
    Reads readNumber value member.2

theorem ReadsMember.skipBlanks (reads : ReadsMember readNumber text member) (rest : List Char) :
    skipBlanks (text ++ rest) = text ++ rest := by
  rcases reads with ⟨key, value, rfl, readsKey, -⟩
  rw [List.append_assoc]
  exact readsKey.skipBlanks _

theorem ReadsMember.not_closed (reads : ReadsMember readNumber text member) (rest : List Char) :
    expected '\x7d' (text ++ rest) = none := by
  rcases reads with ⟨key, value, rfl, readsKey, -⟩
  rcases readsKey.starts with ⟨first, tail, rfl, shown, other⟩
  exact expected_of_ne shown other _

theorem readDefinition_member (reads : ReadsMember readNumber text member)
    (stops : StopsAt isScalarCharacter rest) (enough : 2 * (text ++ rest).length ≤ fuel) :
    readDefinition (readValue readNumber fuel) (text ++ rest) =
      some (([member.1], member.2), rest) := by
  rcases reads with ⟨key, value, rfl, readsKey, readsValue⟩
  have blank := @stopsAt_cons isBareCharacter ' ' (by decide) ('=' :: ' ' :: (value ++ rest))
  have noDot : expected '.' (' ' :: '=' :: ' ' :: (value ++ rest)) = none := by
    rw [expected_blank, expected_of_ne (by decide) (by decide)]
  have whole : key ++ ' ' :: '=' :: ' ' :: value ++ rest =
      key ++ ' ' :: '=' :: ' ' :: (value ++ rest) := by simp
  have filled := readsKey.length_pos
  rw [whole] at enough ⊢
  simp only [List.length_append, List.length_cons] at enough
  rw [readDefinition, readKey_last readsKey blank noDot (by simp), Option.bind_some]
  dsimp only
  rw [expected_blank, expected_self (by decide), Option.bind_some, skipBlanks_blank,
    readsValue.skipBlanks, readsValue.reads fuel rest stops (by rw [List.length_append]; omega)]
  rfl

theorem readDefinitions_blank (fuel : Nat) (text : List Char) :
    readDefinitions readNumber fuel (' ' :: text) = readDefinitions readNumber fuel text := by
  cases fuel with
  | zero => rw [readDefinitions, readDefinitions]
  | succ fuel => rw [readDefinitions, readDefinitions, skipBlanks_blank]

theorem readDefinitions_listed (reads : List.Forall₂ (ReadsMember readNumber) parts members)
    (filled : parts ≠ []) (enough : 2 * (listed parts ++ '\x7d' :: rest).length + 1 ≤ fuel) :
    readDefinitions readNumber fuel (listed parts ++ '\x7d' :: rest) =
      some (members.map fun member => ([member.1], member.2), rest) := by
  induction reads generalizing fuel with
  | nil => exact absurd rfl filled
  | @cons part member parts members first others induction =>
      cases fuel with
      | zero => omega
      | succ fuel =>
          cases others with
          | nil =>
              rw [listed_singleton] at enough ⊢
              have closed := @stopsAt_cons isScalarCharacter '\x7d' (by decide) rest
              rw [readDefinitions, first.skipBlanks, readDefinition_member first closed (by omega),
                Option.bind_some]
              dsimp only
              rw [expected_of_ne (by decide) (by decide), expected_self (by decide)]
              rfl
          | @cons next nextMember parts members second others =>
              rw [listed_cons_cons] at enough ⊢
              have comma := @stopsAt_cons isScalarCharacter ',' (by decide)
                (' ' :: (listed (next :: parts) ++ '\x7d' :: rest))
              rw [readDefinitions, first.skipBlanks, readDefinition_member first comma (by omega),
                Option.bind_some]
              dsimp only
              rw [expected_self (by decide)]
              dsimp only
              rw [List.length_append, List.length_cons, List.length_cons] at enough
              rw [readDefinitions_blank, induction (List.cons_ne_nil _ _) (by omega)]
              rfl

theorem reads_object {members : Members}
    (reads : List.Forall₂ (ReadsMember readNumber) parts members) (nodup : members.keys.Nodup) :
    Reads readNumber ('\x7b' :: listed parts ++ ['\x7d']) (.object members) where
  starts := ⟨'\x7b', _, rfl, by decide, by decide⟩
  reads fuel rest _ enough := by
    have whole : '\x7b' :: listed parts ++ ['\x7d'] ++ rest =
        '\x7b' :: (listed parts ++ '\x7d' :: rest) := by simp
    rw [whole] at enough ⊢
    rw [List.length_cons] at enough
    cases fuel with
    | zero => omega
    | succ fuel =>
        cases reads with
        | nil => rfl
        | @cons part member parts members first others =>
            have notClosed : expected '\x7d' (listed (part :: parts) ++ '\x7d' :: rest) = none := by
              cases parts with
              | nil =>
                  rw [listed_singleton]
                  exact first.not_closed _
              | cons next parts =>
                  rw [listed_cons_cons]
                  exact first.not_closed _
            rw [readValue, notClosed]
            dsimp only
            rw [readDefinitions_listed (.cons first others) (List.cons_ne_nil _ _) (by omega),
              Option.bind_some]
            dsimp only
            rw [DottedKeys.tableOf_members nodup]
            rfl

/-! ## Lines -/

theorem readLine_dotted (keysRead : List.Forall₂ ReadsKey texts keys) (filled : texts ≠ [])
    (reads : Reads readNumber text value) :
    readLine readNumber (['.'].intercalate texts ++ '=' :: text) = some (keys, value) := by
  have shown : skipBlanks (['.'].intercalate texts ++ '=' :: text) =
      ['.'].intercalate texts ++ '=' :: text := by
    cases keysRead with
    | nil => exact absurd rfl filled
    | cons first others => exact first.skipBlanks_intercalate _ _
  have stops := @stopsAt_cons isBareCharacter '=' (by decide) text
  have noDot : expected '.' ('=' :: text) = none := expected_of_ne (by decide) (by decide) text
  have enough : 2 * (text ++ []).length ≤ 2 * (['.'].intercalate texts ++ '=' :: text).length := by
    simp only [List.length_append, List.length_cons, List.length_nil]
    omega
  have value := reads.reads _ [] (stopsAt_nil isScalarCharacter) enough
  have start := reads.skipBlanks []
  rw [List.append_nil] at value start
  rw [readLine, readDefinition, shown,
    readKey_dotted keysRead filled stops noDot (Nat.le_refl _), Option.bind_some]
  dsimp only
  rw [expected_self (by decide), Option.bind_some, start, value]
  rfl

end Toml

end HarnessAgent
