import HarnessAgent.Foundation.ShellWord
import HarnessAgent.Foundation.Text
import Mathlib.Data.List.Infix

/-! # The structure of a shell script

A script is read character by character. Inside of quotes and comments, and after a
backslash, the shell takes a character literally. All other characters are the structure
of the script: operators, expansions, words that are not quoted. Texts that are read once
more by rules of their own belong to it as a whole: backquotes, `$'…'`, here-documents and
their delimiters, and arithmetic, in which quotes protect nothing. What a command does with
its words after they are expanded is no matter of the structure.
-/

namespace ShellScan

/-- The word after `<<`, without its quotes. Quotes keep the document from being expanded,
and `<<-` takes the tabs off its lines. -/
structure Delimiter where
  stripsTabs : Bool := false
  quoted : Bool := false
  text : List Char := []
  deriving DecidableEq, Repr

def Delimiter.more (delimiter : Delimiter) (character : Char) : Delimiter :=
  { delimiter with text := delimiter.text ++ [character] }

def Delimiter.inQuotes (delimiter : Delimiter) : Delimiter :=
  { delimiter with quoted := true }

def Delimiter.endsAt (delimiter : Delimiter) (line : List Char) : Bool :=
  (if delimiter.stripsTabs then line.dropWhile (· = '\t') else line) = delimiter.text

inductive Nest
  -- `$( … )`, `<( … )`, `( … )`, `case … esac`, and `name=( … )`
  | substitution
  | group
  | cases
  | elements
  -- `${ … }` before its operator, and after it with quotes or in double quotes
  | parameter (quoted begun : Bool)
  | braces
  | quotedBraces
  | double
  -- `$(( … ))`, `(( … ))`, `$[ … ]`, `name[ … ]`, `${name: … }`
  | arithmetic (closing : Char)
  | document (delimiter : Delimiter) (line : List Char)
  deriving DecidableEq, Repr

inductive Mode
  | text
  -- after `$(`, after `(` at the beginning of a word, after `<`, `>` and `<<`
  | opened
  | parenthesis
  | less
  | greater
  | announced
  | delimiter (delimiter : Delimiter) (quote : Option Char)
  | dollar
  | colon
  | single
  | comment
  -- single quotes in arithmetic
  | raw
  | ansi (escaped : Bool)
  | backquotes (escaped : Bool)
  | escaped (before : Mode)
  deriving DecidableEq, Repr

/-- What is right in front of a place: the beginning of a word, or the end of something
that can be a name, or another character. -/
inductive Before
  | gap
  | name
  | mark
  deriving DecidableEq, Repr

/-- A name ends in one of these. A quoted text and an expansion count as names too, and a
number or a sentence cannot be told from the end of one. -/
def Before.of (character : Char) : Before :=
  if Text.isAsciiLetter character ∨ Text.isAsciiDigit character ∨ character ∈ ['_', '.'] then
    .name
  else .mark

/-- After these words a command begins. -/
def openers : List (List Char) :=
  ["if", "then", "elif", "else", "do", "while", "until", "time", "!", "\x7b"].map String.toList

def keywords : List (List Char) :=
  ['c', 'a', 's', 'e'] :: ['e', 's', 'a', 'c'] :: openers

/-- Where a scan is. The word is what has been read of the first word of a command, as long
as it can become a keyword. The delimiters are those of documents that begin on the next
line. -/
structure State where
  nest : List Nest := []
  mode : Mode := .text
  before : Before := .gap
  word : Option (List Char) := some []
  awaiting : List Delimiter := []
  deriving DecidableEq, Repr

/-- A new state, and the characters that have turned out to be structure. -/
abbrev Outcome := State × List Char

def extend (word : Option (List Char)) (character : Char) : Option (List Char) :=
  word.bind fun own =>
    if ∃ keyword ∈ keywords, own ++ [character] <+: keyword then some (own ++ [character])
    else none

namespace State

variable (state : State)

abbrev IsCaseWord (word : Option (List Char)) : Prop :=
  word = some ['c', 'a', 's', 'e'] ∨ word = some ['e', 's', 'a', 'c']

def inWord : State :=
  { state with mode := .text, before := .name, word := none }

def literal (character : Char) : State :=
  { state with mode := .text, before := .of character, word := extend state.word character }

def endWord : State :=
  if state.word = some ['c', 'a', 's', 'e'] then { state with nest := .cases :: state.nest }
  else if state.word = some ['e', 's', 'a', 'c'] ∧ state.nest.head? = some .cases then
    { state with nest := state.nest.tail }
  else state

def blank : State :=
  { state.endWord with
    mode := .text
    before := .gap
    word := if ∃ word ∈ [] :: openers, state.word = some word then some [] else none }

def separator : State :=
  { state.endWord with mode := .text, before := .gap, word := some [] }

def isUnquoted : Bool :=
  match state.nest with
  | [] => true
  | .substitution :: _ => true
  | .group :: _ => true
  | .cases :: _ => true
  | .elements :: _ => true
  | .braces :: _ => true
  | _ => false

/-! ## Reading -/

def endLine : State :=
  match state.awaiting with
  | [] => state.separator
  | delimiter :: later =>
      { state.separator with
        nest := .document delimiter [] :: state.separator.nest
        awaiting := later }

def closeParenthesis : State :=
  match state.separator.nest with
  | .substitution :: rest => { state.inWord with nest := rest }
  | .group :: rest => { state.separator with nest := rest }
  | .elements :: rest => { state.separator with nest := rest }
  -- At the end of a pattern of a case, nothing is closed.
  | _ => state.separator

def openParenthesis : State :=
  match state.before with
  | .gap => { state.separator with nest := .group :: state.separator.nest, mode := .parenthesis }
  | .name => { state.separator with nest := .group :: state.separator.nest }
  | .mark => { state.separator with nest := .elements :: state.separator.nest }

def opensIndex : Bool :=
  match state.before with
  | .name => true
  | .gap => state.nest.head? = some .elements
  | .mark => false

def readCommand (character : Char) : Outcome :=
  if character = '\'' then ({ state.inWord with mode := .single }, [])
  else if character = '"' then ({ state.inWord with nest := .double :: state.nest }, [character])
  else if character = '#' ∧ state.before = .gap then
    ({ state.inWord with mode := .comment }, [character])
  else if character = '\n' then (state.endLine, [character])
  else if character = '(' then (state.openParenthesis, [character])
  else if character = ')' then (state.closeParenthesis, [character])
  else if character = '<' then ({ state.blank with mode := .less, word := none }, [character])
  else if character = '>' then ({ state.blank with mode := .greater, word := none }, [character])
  else if character = '[' ∧ state.opensIndex = true then
    ({ state.inWord with nest := .arithmetic ']' :: state.nest }, [character])
  else if character ∈ [' ', '\t'] then (state.blank, [character])
  else if character ∈ [';', '&', '|'] then (state.separator, [character])
  else (state.literal character, [character])

def expanding (character : Char) (otherwise : Outcome) : Outcome :=
  if character = '$' then ({ state with mode := .dollar }, [])
  else if character = '`' then ({ state with mode := .backquotes false }, [character])
  else otherwise

def past (characters : List Char) : State :=
  match state.nest with
  | .document delimiter line :: rest =>
      { state.inWord with nest := .document delimiter (line ++ characters) :: rest }
  | _ => state.inWord

/-- The lines are taken as they are, also where something is still open in them. -/
def readDocument (delimiter : Delimiter) (line : List Char) (rest : List Nest)
    (character : Char) : Outcome :=
  if character = '\n' then
    if delimiter.endsAt line then (State.endLine { state with nest := rest }, [character])
    else ({ state.inWord with nest := .document delimiter [] :: rest }, [character])
  else (state.past [character], [character])

/-- In arithmetic, quotes hide what would end it, but protect nothing. -/
def readArithmetic (closing : Char) (rest : List Nest) (character : Char) : Outcome :=
  state.inWord.expanding character
    (if character = closing then ({ state.inWord with nest := rest }, [character])
    else if (character, closing) = ('(', ')') ∨ (character, closing) = ('[', ']') then
      ({ state.inWord with nest := .arithmetic closing :: state.nest }, [character])
    else if character = '\'' then ({ state.inWord with mode := .raw }, [character])
    else if character = '"' then
      ({ state.inWord with nest := .double :: state.nest }, [character])
    else (state.inWord, [character]))

/-- The special parameters, and the characters that start a name or a number. -/
def isParameter (character : Char) : Bool :=
  character.isAlphanum || character == '_' || "@*#?-$!".toList.contains character

def readBraces (quoted : Bool) : Nest :=
  if quoted then .quotedBraces else .braces

def readParameter (quoted begun : Bool) (rest : List Nest) (character : Char) : Outcome :=
  if character = '}' then ({ state.inWord with nest := rest }, [character])
  else if character.isAlphanum ∨ character = '_' ∨ begun = false ∧ isParameter character then
    ({ state.inWord with nest := .parameter quoted true :: rest }, [character])
  else if character = '[' then
    ({ state.inWord with nest := .arithmetic ']' :: state.nest }, [character])
  else if character = ':' then ({ state.inWord with mode := .colon }, [character])
  else if character ∈ ['-', '=', '+', '?'] then
    ({ state.inWord with nest := readBraces quoted :: rest }, [character])
  -- What follows is a pattern, in which quotes have their meaning also inside of others.
  else if character ∈ ['#', '%', '/', '^', ',', '@', '*'] then
    ({ state.inWord with nest := .braces :: rest }, [character])
  else State.readArithmetic { state with nest := .arithmetic '}' :: rest } '}' rest character

def readText (character : Char) : Outcome :=
  match state.nest with
  | .document delimiter line :: rest => state.readDocument delimiter line rest character
  | .double :: rest =>
      state.inWord.expanding character
        (if character = '"' then ({ state.inWord with nest := rest }, [character])
        else (state.inWord, []))
  | .parameter quoted begun :: rest => state.readParameter quoted begun rest character
  | .quotedBraces :: rest =>
      state.inWord.expanding character
        (if character = '}' then ({ state.inWord with nest := rest }, [character])
        else if character = '"' then
          ({ state.inWord with nest := .double :: state.nest }, [character])
        else (state.inWord, [character]))
  | .arithmetic closing :: rest => state.readArithmetic closing rest character
  | .braces :: rest =>
      state.inWord.expanding character
        (if character = '}' then ({ state.inWord with nest := rest }, [character])
        else if character = '\'' then ({ state.inWord with mode := .single }, [])
        else if character = '"' then
          ({ state.inWord with nest := .double :: state.nest }, [character])
        else (state.inWord, [character]))
  | _ => state.inWord.expanding character (state.readCommand character)

def readDollar (character : Char) : Outcome :=
  if character = '(' then
    ({ nest := .substitution :: state.nest, mode := .opened, awaiting := state.awaiting },
      ['$', character])
  else if character = '{' then
    ({ state.inWord with nest := .parameter (!state.isUnquoted) false :: state.nest },
      ['$', character])
  else if character = '[' then
    ({ state.inWord with nest := .arithmetic ']' :: state.nest }, ['$', character])
  else if character = '\'' ∧ state.isUnquoted = true then
    ({ state.inWord with mode := .ansi false }, ['$', character])
  else if isParameter character then (state.inWord, ['$', character])
  else state.readText character

/-- A substring is given by arithmetic, unless the colon belongs to an operator. -/
def readColon (character : Char) : Outcome :=
  match state.nest with
  | .parameter quoted _ :: rest =>
      if character ∈ ['-', '=', '+', '?'] then
        ({ state.inWord with nest := readBraces quoted :: rest }, [character])
      else State.readArithmetic { state with nest := .arithmetic '}' :: rest } '}' rest character
  | _ => (state.inWord, [character])

def endsDelimiter (character : Char) : Bool :=
  [' ', '\t', '\n', ';', '&', '|', '<', '>', '(', ')'].contains character

def readDelimiter (delimiter : Delimiter) (quote : Option Char) (character : Char) : Outcome :=
  match quote with
  | some mark =>
      if character = mark then
        ({ state with mode := .delimiter delimiter none }, [character])
      else ({ state with mode := .delimiter (delimiter.more character) quote }, [character])
  | none =>
      if character = '\'' ∨ character = '"' then
        ({ state with mode := .delimiter delimiter.inQuotes (some character) }, [character])
      else if character = '\\' then
        ({ state with mode := .delimiter delimiter.inQuotes none }, [character])
      else if endsDelimiter character = false then
        ({ state with mode := .delimiter (delimiter.more character) none }, [character])
      else if delimiter.text ≠ [] ∨ delimiter.quoted = true then
        State.readText { state with mode := .text, awaiting := state.awaiting ++ [delimiter] }
          character
      else if character = ' ' ∨ character = '\t' then
        ({ state with mode := .delimiter delimiter none }, [character])
      else State.readText { state with mode := .text } character

/-- A backslash takes the meaning off the next character. -/
def escapes : Bool :=
  match state.mode with
  | .text => match state.nest with
    | .document delimiter _ :: _ => !delimiter.quoted
    | _ => true
  | .opened => true
  | .parenthesis => true
  | .less => true
  | .greater => true
  | .dollar => true
  | .colon => true
  | _ => false

def read (character : Char) : Outcome :=
  match state.mode with
  | .text => state.readText character
  -- Two parentheses after a dollar sign, or at the beginning of a word, make it arithmetic.
  | .opened | .parenthesis =>
      if character = '(' then
        ({ state.inWord with nest := .arithmetic ')' :: .arithmetic ')' :: state.nest.tail },
          [character])
      else state.readText character
  | .less =>
      if character = '<' then ({ state with mode := .announced }, [character])
      else if character = '(' then
        ({ state.separator with nest := .substitution :: state.nest }, [character])
      else state.readText character
  | .greater =>
      if character = '(' then
        ({ state.separator with nest := .substitution :: state.nest }, [character])
      else state.readText character
  | .announced =>
      if character = '<' then ({ state with mode := .text }, [character])
      else if character = '-' then
        ({ state with mode := .delimiter { stripsTabs := true } none }, [character])
      else state.readDelimiter {} none character
  | .delimiter delimiter quote => state.readDelimiter delimiter quote character
  | .dollar => state.readDollar character
  | .colon => state.readColon character
  | .single => if character = '\'' then (state.inWord, []) else (state, [])
  | .comment => if character = '\n' then state.readText character else (state, [])
  | .raw =>
      if character = '\'' then (state.inWord, [character]) else (state, [character])
  | .ansi true => ({ state with mode := .ansi false }, [character])
  | .ansi false =>
      if character = '\'' then (state.inWord, [character])
      else ({ state with mode := .ansi (character = '\\') }, [character])
  | .backquotes true => ({ state with mode := .backquotes false }, [character])
  | .backquotes false =>
      if character = '`' then (state.inWord, [character])
      else ({ state with mode := .backquotes (character = '\\') }, [character])
  -- A line that ends in a backslash goes on as if nothing had been there.
  | .escaped before =>
      if character = '\n' then ({ state with mode := before }, [])
      else (state.past ['\\', character], [])

def step (character : Char) : Outcome :=
  if character = '\\' ∧ state.escapes = true then
    ({ state with mode := .escaped state.mode }, [])
  else state.read character

def scan (state : State) : List Char → Outcome
  | [] => (state, [])
  | character :: rest =>
      let first := state.step character
      let later := first.1.scan rest
      (later.1, first.2 ++ later.2)

/-! ## Places outside of quotes -/

def isPlain : Bool :=
  state.isUnquoted &&
    match state.mode with
    | .text => true
    | .opened => true
    | .parenthesis => true
    | .less => true
    | .greater => true
    | _ => false

variable {state}

theorem scan_append (left right : List Char) :
    state.scan (left ++ right) =
      (((state.scan left).1.scan right).1,
        (state.scan left).2 ++ ((state.scan left).1.scan right).2) := by
  induction left generalizing state with
  | nil => rfl
  | cons character left induction =>
      rw [List.cons_append, scan, induction, scan]
      simp only [List.append_assoc]

theorem isPlain_inWord (plain : state.isPlain = true) : state.inWord.isPlain = true := by
  rw [isPlain, Bool.and_eq_true] at plain
  exact Bool.and_eq_true_iff.mpr ⟨plain.1, rfl⟩

theorem inWord_inWord : state.inWord.inWord = state.inWord := rfl

theorem past_of_isUnquoted (unquoted : state.isUnquoted = true) (characters : List Char) :
    state.past characters = state.inWord := by
  rcases state with ⟨nest, mode, before, word, awaiting⟩
  cases nest with
  | nil => rfl
  | cons first rest => cases first with
    | document delimiter line => cases unquoted
    | _ => rfl

variable {character : Char}

theorem step_eq_read (other : character ≠ '\\') : state.step character = state.read character :=
  if_neg fun both => other both.1

theorem step_of_isPlain (plain : state.isPlain = true)
    (other : character ≠ '\\' ∧ character ≠ '(' ∧ character ≠ '<') :
    state.step character = state.readText character := by
  rw [step_eq_read other.1]
  rcases state with ⟨nest, mode, before, word, awaiting⟩
  cases mode with
  | text => rfl
  | opened => exact if_neg other.2.1
  | parenthesis => exact if_neg other.2.1
  | less => exact (if_neg other.2.2).trans (if_neg other.2.1)
  | greater => exact if_neg other.2.1
  | _ => simp [isPlain] at plain

theorem readText_of_isUnquoted (unquoted : state.isUnquoted = true) (character : Char) :
    state.readText character = state.inWord.expanding character
      (if state.nest.head? = some .braces then
        if character = '}' then ({ state.inWord with nest := state.nest.tail }, [character])
        else if character = '\'' then ({ state.inWord with mode := .single }, [])
        else if character = '"' then
          ({ state.inWord with nest := .double :: state.nest }, [character])
        else (state.inWord, [character])
      else state.readCommand character) := by
  rcases state with ⟨nest, mode, before, word, awaiting⟩
  cases nest with
  | nil => rfl
  | cons first rest => cases first with
    | substitution => rfl
    | group => rfl
    | cases => rfl
    | elements => rfl
    | braces => rfl
    | parameter quoted begun => cases unquoted
    | quotedBraces => cases unquoted
    | double => cases unquoted
    | arithmetic closing => cases unquoted
    | document delimiter line => cases unquoted

theorem step_quote (plain : state.isPlain = true) :
    state.step '\'' = ({ state.inWord with mode := .single }, []) := by
  have unquoted := (Bool.and_eq_true_iff.mp plain).1
  rw [step_of_isPlain plain (by decide), readText_of_isUnquoted unquoted]
  split
  · rfl
  · rfl

theorem escapes_of_isPlain (plain : state.isPlain = true) : state.escapes = true := by
  rcases Bool.and_eq_true_iff.mp plain with ⟨unquoted, read⟩
  rcases state with ⟨nest, mode, before, word, awaiting⟩
  cases mode with
  | text =>
      cases nest with
      | nil => rfl
      | cons first rest => cases first with
        | document delimiter line => cases unquoted
        | _ => rfl
  | opened => rfl
  | parenthesis => rfl
  | less => rfl
  | greater => rfl
  | _ => cases read

theorem scan_escapedQuote (plain : state.isPlain = true) :
    state.scan ['\\', '\''] = (state.inWord, []) := by
  have backslash : state.step '\\' = ({ state with mode := .escaped state.mode }, []) :=
    if_pos ⟨rfl, escapes_of_isPlain plain⟩
  have quote : State.step { state with mode := .escaped state.mode } '\'' =
      (State.past { state with mode := .escaped state.mode } ['\\', '\''], []) := rfl
  have next : State.past { state with mode := .escaped state.mode } ['\\', '\''] =
      state.inWord := past_of_isUnquoted (Bool.and_eq_true_iff.mp plain).1 _
  rw [scan, backslash, scan, quote, next]
  rfl

theorem scan_enclosed (plain : state.isPlain = true) (text : List Char) :
    state.scan (ShellWord.enclosed text) = (state.inWord, []) := by
  have plainWord := isPlain_inWord plain
  have inside : ∀ part : List Char,
      State.scan { state.inWord with mode := .single } ((part.flatMap fun character =>
        if character = '\'' then ['\'', '\\', '\'', '\''] else [character]) ++ ['\'']) =
        (state.inWord, []) := by
    intro part
    induction part with
    | nil => rfl
    | cons character part induction =>
        rw [List.flatMap_cons, List.append_assoc]
        split
        · have closes : State.scan { state.inWord with mode := .single } ['\''] =
              (state.inWord, []) := rfl
          have opens : state.inWord.scan ['\''] =
              ({ state.inWord with mode := .single }, []) := by
            rw [scan, step_quote plainWord]
            rfl
          have reopened : State.scan { state.inWord with mode := .single }
              ['\'', '\\', '\'', '\''] = ({ state.inWord with mode := .single }, []) := by
            have pieces : ['\'', '\\', '\'', '\''] = ['\''] ++ (['\\', '\''] ++ ['\'']) := rfl
            rw [pieces, scan_append, closes, scan_append, scan_escapedQuote plainWord,
              inWord_inWord, opens]
            rfl
          rw [scan_append, reopened, induction]
          rfl
        · next other =>
            have stays : State.scan { state.inWord with mode := .single } [character] =
                ({ state.inWord with mode := .single }, []) := by
              simp [scan, step, read, escapes, other]
            rw [scan_append, stays, induction]
            rfl
  rw [ShellWord.enclosed, List.cons_append, scan, step_quote plain, inside]
  rfl

theorem scan_reading (plain : state.isPlain = true) (path : String) :
    state.scan (ShellWord.reading path) =
      (state.inWord, ['$', '(', 'c', 'a', 't', ' ', ')']) := by
  let inner : State :=
    { nest := .substitution :: state.nest, word := none, awaiting := state.awaiting }
  have start : state.step '$' = ({ state.inWord with mode := .dollar }, []) := by
    rw [step_of_isPlain plain (by decide),
      readText_of_isUnquoted (Bool.and_eq_true_iff.mp plain).1]
    rfl
  have opening : State.scan { state.inWord with mode := .dollar } ['(', 'c', 'a', 't', ' '] =
      (inner, ['$', '(', 'c', 'a', 't', ' ']) := rfl
  have name : inner.scan (ShellWord.enclosed path.toList) = (inner.inWord, []) :=
    scan_enclosed rfl path.toList
  have closing : inner.inWord.scan [')'] = (state.inWord, [')']) := rfl
  have spelled : ShellWord.reading path =
      '$' :: (['(', 'c', 'a', 't', ' '] ++ (ShellWord.enclosed path.toList ++ [')'])) :=
    List.append_assoc _ _ _
  rw [spelled, scan, start, scan_append, opening, scan_append, name, closing]
  rfl

/-! ## Texts that close what they open -/

def Settles (text : List Char) : Prop :=
  ∀ state : State, state.isPlain = true → (state.scan text).1 = state.inWord

/-- Neither literal nor a part of the structure by itself: what a word can be made of. -/
def isOrdinary (character : Char) : Bool :=
  Text.isAsciiLetter character || Text.isAsciiDigit character ||
    ".,:+-_".toList.contains character

theorem ne_of_isOrdinary (ordinary : isOrdinary character = true)
    (marked : isOrdinary special = false) : character ≠ special := by
  intro same
  rw [same, marked] at ordinary
  cases ordinary

theorem step_ordinary (plain : state.isPlain = true) (ordinary : isOrdinary character = true) :
    state.step character =
      (if state.nest.head? = some .braces then state.inWord else state.literal character,
        [character]) := by
  have other : ∀ special, isOrdinary special = false → character ≠ special :=
    fun _ marked => ne_of_isOrdinary ordinary marked
  have start : character ≠ '\\' ∧ character ≠ '(' ∧ character ≠ '<' :=
    ⟨other _ (by decide), other _ (by decide), other _ (by decide)⟩
  rw [step_of_isPlain plain start, readText_of_isUnquoted (Bool.and_eq_true_iff.mp plain).1,
    expanding, if_neg (other '$' (by decide)), if_neg (other '`' (by decide))]
  split
  · rw [if_neg (other '}' (by decide)), if_neg (other '\'' (by decide)),
      if_neg (other '"' (by decide))]
  · have blank : character ∉ [' ', '\t'] := by
      simp [other ' ' (by decide), other '\t' (by decide)]
    have separator : character ∉ [';', '&', '|'] := by
      simp [other ';' (by decide), other '&' (by decide), other '|' (by decide)]
    rw [readCommand, if_neg (other '\'' (by decide)), if_neg (other '"' (by decide)),
      if_neg (fun both => other '#' (by decide) both.1), if_neg (other '\n' (by decide)),
      if_neg (other '(' (by decide)), if_neg (other ')' (by decide)),
      if_neg (other '<' (by decide)), if_neg (other '>' (by decide)),
      if_neg (fun both => other '[' (by decide) both.1), if_neg blank, if_neg separator]

theorem foldl_extend_eq_some {word : Option (List Char)} (kept : text.foldl extend word = some own)
    (shown : text ≠ []) : ∃ keyword ∈ keywords, text <:+: keyword := by
  have joined : ∀ {text own : List Char}, text.foldl extend word = some own →
      ∃ first, word = some first ∧ own = first ++ text := by
    intro text
    induction text using List.reverseRecOn with
    | nil => exact fun same => ⟨_, same, (List.append_nil _).symm⟩
    | append_singleton front last induction =>
        intro own kept
        rw [List.foldl_append] at kept
        rcases Option.bind_eq_some_iff.mp kept with ⟨middle, before, after⟩
        rcases induction before with ⟨first, same, rfl⟩
        split at after
        · exact ⟨first, same, by rw [← Option.some.inj after, List.append_assoc]⟩
        · cases after
  rcases joined kept with ⟨first, -, rfl⟩
  rcases List.eq_nil_or_concat text with empty | ⟨front, last, rfl⟩
  · exact absurd empty shown
  rw [List.concat_eq_append, List.foldl_append] at kept
  rcases Option.bind_eq_some_iff.mp kept with ⟨middle, -, after⟩
  split at after
  · next found =>
      rcases found with ⟨keyword, member, rest, spelled⟩
      refine ⟨keyword, member, first, rest, ?_⟩
      rw [Option.some.inj after] at spelled
      rw [List.concat_eq_append, ← spelled]
  · cases after

theorem scan_ordinary_braces (plain : state.isPlain = true)
    (braces : state.nest.head? = some .braces) (shown : text ≠ [])
    (ordinary : ∀ character ∈ text, isOrdinary character = true) :
    (state.scan text).1 = state.inWord := by
  induction text generalizing state with
  | nil => exact absurd rfl shown
  | cons character rest induction =>
      rw [scan, step_ordinary plain (ordinary character List.mem_cons_self), if_pos braces]
      cases rest with
      | nil => rfl
      | cons next rest =>
          exact induction (isPlain_inWord plain) braces (List.cons_ne_nil _ _)
            fun other member => ordinary other (List.mem_cons_of_mem _ member)

theorem scan_ordinary_command (plain : state.isPlain = true)
    (command : state.nest.head? ≠ some .braces)
    (ordinary : ∀ character ∈ text, isOrdinary character = true) :
    (state.scan text).1 = text.foldl literal state := by
  induction text generalizing state with
  | nil => rfl
  | cons character rest induction =>
      have next : (state.literal character).isPlain = true :=
        Bool.and_eq_true_iff.mpr ⟨(Bool.and_eq_true_iff.mp plain).1, rfl⟩
      rw [scan, step_ordinary plain (ordinary character List.mem_cons_self), if_neg command]
      exact induction next command fun other member =>
        ordinary other (List.mem_cons_of_mem _ member)

theorem foldl_literal (front : List Char) (last : Char) :
    (front ++ [last]).foldl literal state =
      { state with
        mode := .text
        before := .of last
        word := (front ++ [last]).foldl extend state.word } := by
  have kept : (front.foldl literal state).nest = state.nest ∧
      (front.foldl literal state).awaiting = state.awaiting ∧
        (front.foldl literal state).word = front.foldl extend state.word := by
    induction front generalizing state with
    | nil => exact ⟨rfl, rfl, rfl⟩
    | cons character front induction => exact induction
  rw [List.foldl_append, List.foldl_append]
  change literal _ last = _
  rw [literal, kept.1, kept.2.1, kept.2.2]
  rfl

theorem settles_of_ordinary {front : List Char} {last : Char}
    (ordinary : ∀ character ∈ front ++ [last], isOrdinary character = true)
    (ends : Before.of last = .name)
    (unknown : ∀ keyword ∈ keywords, ¬front ++ [last] <:+: keyword) :
    Settles (front ++ [last]) := by
  intro state plain
  have shown : front ++ [last] ≠ [] := List.append_ne_nil_of_right_ne_nil _ (List.cons_ne_nil _ _)
  by_cases braces : state.nest.head? = some .braces
  · exact scan_ordinary_braces plain braces shown ordinary
  · rw [scan_ordinary_command plain braces ordinary, foldl_literal, ends]
    have lost : (front ++ [last]).foldl extend state.word = none := by
      cases kept : (front ++ [last]).foldl extend state.word with
      | none => rfl
      | some own =>
          rcases foldl_extend_eq_some kept shown with ⟨keyword, member, found⟩
          exact absurd found (unknown keyword member)
    rw [lost]
    rfl

structure Track where
  quoted : Bool := true
  depth : Nat := 0
  opening : Bool := false
  before : Before := .name
  word : Option (List Char) := none
  deriving DecidableEq, Repr

namespace Track

def blank (track : Track) : Track :=
  { track with
    opening := false
    before := .gap
    word := if ∃ word ∈ [] :: openers, track.word = some word then some [] else none }

def next (track : Track) (character : Char) : Option Track :=
  if track.quoted = true then
    some (if character = '\'' then { quoted := false, depth := track.depth } else track)
  else if character = '\'' then some { depth := track.depth }
  else if isOrdinary character then
    some { track with
      opening := false
      before := .of character
      word := extend track.word character }
  else if IsCaseWord track.word then none
  else if character = ' ' then some track.blank
  else if character = '(' ∧ track.opening = false ∧ track.before = .gap then
    some ⟨false, track.depth + 1, true, .gap, some []⟩
  else if character = ')' ∧ 0 < track.depth then
    some ⟨false, track.depth - 1, false, .gap, some []⟩
  else none

def follow (track : Track) : List Char → Option Track
  | [] => some track
  | character :: rest => (track.next character).bind fun later => later.follow rest

theorem follow_append (track : Track) (left right : List Char) :
    track.follow (left ++ right) =
      (track.follow left).bind fun later => later.follow right := by
  induction left generalizing track with
  | nil => rfl
  | cons character left induction =>
      rw [List.cons_append, follow, follow, Option.bind_assoc]
      exact congrArg _ (funext fun later => induction later)

theorem follow_quoted {track : Track} (quoted : track.quoted = true) (plain : '\'' ∉ text) :
    track.follow text = some track := by
  induction text with
  | nil => rfl
  | cons character text induction =>
      have other : character ≠ '\'' := fun same => plain (by simp [same])
      rw [follow, next, if_pos quoted, if_neg other, Option.bind_some]
      exact induction fun member => plain (List.mem_cons_of_mem _ member)

end Track

def along (state : State) (track : Track) : State :=
  if state.nest.head? = some .braces then
    { state.inWord with mode := if track.quoted then .single else .text }
  else
    { nest := List.replicate track.depth .group ++ state.nest
      mode := if track.quoted then .single else if track.opening then .parenthesis else .text
      before := track.before
      word := track.word
      awaiting := state.awaiting }

theorem isPlain_along (unquoted : state.isUnquoted = true) {track : Track}
    (outside : track.quoted = false) : (state.along track).isPlain = true := by
  rcases track with ⟨quoted, depth, opening, before, word⟩
  cases outside
  rw [along]
  split
  · exact Bool.and_eq_true_iff.mpr ⟨unquoted, rfl⟩
  · apply Bool.and_eq_true_iff.mpr
    constructor
    · cases depth with
      | zero => exact unquoted
      | succ depth => rfl
    · cases opening with
      | false => rfl
      | true => rfl

theorem endWord_of_ne (other : ¬IsCaseWord state.word) : state.endWord = state := by
  rw [endWord, if_neg fun same => other (.inl same), if_neg fun both => other (.inr both.1)]

variable {track later : Track}

theorem step_along_quoted (quoted : track.quoted = true)
    (moves : track.next character = some later) :
    ((state.along track).step character).1 = state.along later := by
  have single : (state.along track).mode = .single := by
    rw [along, quoted]
    split
    · rfl
    · rfl
  have read : (state.along track).step character =
      if character = '\'' then ((state.along track).inWord, []) else (state.along track, []) := by
    have unescaped : (state.along track).escapes = false := by
      rw [escapes, single]
    rw [step, if_neg (by simp [unescaped]), State.read, single]
  rw [Track.next, if_pos quoted] at moves
  cases moves
  rw [read]
  split
  · rw [along, along]
    split
    · rfl
    · rfl
  · rfl

inductive Moves (track : Track) (character : Char) : Track → Prop
  | quote (same : character = '\'') : Moves track character { depth := track.depth }
  | ordinary (ordinary : isOrdinary character = true) :
      Moves track character
        { track with
          opening := false
          before := .of character
          word := extend track.word character }
  | blank (same : character = ' ')
      (known : ¬IsCaseWord track.word) :
      Moves track character track.blank
  | opening (same : character = '(')
      (known : ¬IsCaseWord track.word)
      (first : track.opening = false) (gap : track.before = .gap) :
      Moves track character ⟨false, track.depth + 1, true, .gap, some []⟩
  | closing (same : character = ')')
      (known : ¬IsCaseWord track.word)
      {depth : Nat} (inside : track.depth = depth + 1) :
      Moves track character ⟨false, depth, false, .gap, some []⟩

theorem moves_of_next (outside : track.quoted = false)
    (moves : track.next character = some later) : Moves track character later := by
  rw [Track.next, if_neg (by simp [outside])] at moves
  split at moves
  · next quote =>
      cases moves
      exact .quote quote
  split at moves
  · next ordinary =>
      cases moves
      exact .ordinary ordinary
  split at moves
  · cases moves
  next known =>
  split at moves
  · next blank =>
      cases moves
      exact .blank blank known
  split at moves
  · next opens =>
      cases moves
      exact .opening opens.1 known opens.2.1 opens.2.2
  split at moves
  · next closes =>
      rcases Nat.exists_eq_add_of_lt closes.2 with ⟨depth, same⟩
      rw [Nat.zero_add] at same
      cases moves
      rw [same]
      exact .closing closes.1 known same
  · cases moves

theorem step_along_braces (braces : state.nest.head? = some .braces)
    (unquoted : state.isUnquoted = true) (outside : track.quoted = false)
    (moves : track.next character = some later) :
    ((state.along track).step character).1 = state.along later := by
  have plain := isPlain_along unquoted outside
  have place : state.along track = state.inWord := by
    rw [along, if_pos braces]
    simp [outside, inWord]
  have reached : state.along later =
      { state.inWord with mode := if later.quoted then .single else .text } := by
    rw [along, if_pos braces]
  rw [place] at plain ⊢
  rw [reached]
  rcases state with ⟨nest, mode, before, word, awaiting⟩
  cases nest with
  | nil => cases braces
  | cons first rest =>
      cases braces
      cases moves_of_next outside moves with
      | quote same =>
          rw [same]
          rfl
      | ordinary ordinary =>
          rw [step_ordinary plain ordinary]
          simp [outside, inWord]
      | blank same known =>
          rw [same]
          simp [Track.blank, outside]
          rfl
      | opening same known first gap =>
          rw [same]
          rfl
      | closing same known inside =>
          rw [same]
          rfl

theorem step_along_command (command : state.nest.head? ≠ some .braces)
    (unquoted : state.isUnquoted = true) (outside : track.quoted = false)
    (moves : track.next character = some later) :
    ((state.along track).step character).1 = state.along later := by
  have plain := @isPlain_along _ unquoted _ outside
  have inside : (state.along track).nest.head? ≠ some .braces := by
    rw [along, if_neg command]
    cases track.depth with
    | zero => exact command
    | succ depth => exact fun wrong => by cases wrong
  have read : ∀ mark ∈ [' ', ')'],
      (state.along track).step mark = (state.along track).readCommand mark := by
    intro mark member
    have other : (mark ≠ '\\' ∧ mark ≠ '(' ∧ mark ≠ '<') ∧ mark ≠ '$' ∧ mark ≠ '`' := by
      revert mark
      exact Text.forall_of_all rfl
    rw [step_of_isPlain plain other.1,
      readText_of_isUnquoted (Bool.and_eq_true_iff.mp plain).1, if_neg inside, expanding,
      if_neg other.2.1, if_neg other.2.2]
  have ends : ¬IsCaseWord track.word → (state.along track).endWord = state.along track := by
    intro known
    apply endWord_of_ne
    rw [along, if_neg command]
    exact known
  cases moves_of_next outside moves with
  | quote same =>
      rw [same, step_quote plain, along, along, if_neg command, if_neg command]
      rfl
  | ordinary ordinary =>
      rw [step_ordinary plain ordinary, if_neg inside, along, along, if_neg command,
        if_neg command]
      simp [literal, outside]
  | blank same known =>
      rw [same, read ' ' (by decide)]
      change (state.along track).blank = _
      rw [State.blank, ends known, along, along, if_neg command, if_neg command]
      simp [Track.blank, outside]
  | opening same known first gap =>
      have mode : (state.along track).mode = .text := by
        rw [along, if_neg command, outside, first]
        rfl
      have before : (state.along track).before = .gap := by
        rw [along, if_neg command]
        exact gap
      have opens : (state.along track).step '(' = (state.along track).readText '(' := by
        rw [step_eq_read (by decide), State.read, mode]
      rw [same, opens, readText_of_isUnquoted (Bool.and_eq_true_iff.mp plain).1, if_neg inside]
      change (state.along track).openParenthesis = _
      rw [openParenthesis, before, separator, ends known, along, along, if_neg command,
        if_neg command]
      rfl
  | closing same known deeper =>
      rw [same, read ')' (by decide)]
      change (state.along track).closeParenthesis = _
      rw [closeParenthesis, separator, ends known, along, along, if_neg command,
        if_neg command, deeper]
      rfl

theorem scan_along (unquoted : state.isUnquoted = true) (follows : track.follow text = some last) :
    ((state.along track).scan text).1 = state.along last := by
  induction text generalizing track with
  | nil =>
      cases follows
      rfl
  | cons character rest induction =>
      rcases Option.bind_eq_some_iff.mp follows with ⟨later, moves, follows⟩
      have next : ((state.along track).step character).1 = state.along later := by
        cases quoted : track.quoted with
        | true => exact step_along_quoted quoted moves
        | false =>
            by_cases braces : state.nest.head? = some .braces
            · exact step_along_braces braces unquoted quoted moves
            · exact step_along_command braces unquoted quoted moves
      rw [scan, next]
      exact induction follows

theorem settles_of_follow (follows : Track.follow {} text = some { quoted := false }) :
    Settles ('\'' :: text) := by
  intro state plain
  have unquoted := (Bool.and_eq_true_iff.mp plain).1
  have starts : state.along {} = { state.inWord with mode := .single } := by
    rw [along]
    split
    · rfl
    · rfl
  have ends : state.along { quoted := false } = state.inWord := by
    rw [along]
    split
    · rfl
    · rfl
  rw [scan, step_quote plain, ← starts]
  exact (scan_along unquoted follows).trans ends

/-! ## Places where a value takes part in the structure -/

def Shows (state : State) : Prop :=
  ∃ shown, (state.step 'a').2 = shown ++ ['a'] ∧ (state.step 'b').2 = shown ++ ['b']

theorem shows_of_dollar (mode : state.mode = .dollar) : Shows state := by
  rcases state with ⟨nest, own, before, word, awaiting⟩
  cases mode
  exact ⟨['$'], rfl, rfl⟩

theorem shows_of_raw (mode : state.mode = .raw) : Shows state := by
  rcases state with ⟨nest, own, before, word, awaiting⟩
  cases mode
  exact ⟨[], rfl, rfl⟩

theorem shows_of_delimiter (mode : state.mode = .delimiter delimiter quote) : Shows state := by
  rcases state with ⟨nest, own, before, word, awaiting⟩
  cases mode
  have appears : ∀ letter ∈ ['a', 'b'],
      (State.readDelimiter ⟨nest, .delimiter delimiter quote, before, word, awaiting⟩ delimiter
        quote letter).2 = [letter] := by
    intro letter member
    have other : ¬(letter = '\'' ∨ letter = '"') ∧ letter ≠ '\\' ∧
        endsDelimiter letter = false := by
      revert letter
      exact Text.forall_of_all rfl
    cases quote with
    | none => simp [readDelimiter, other]
    | some mark =>
        simp only [readDelimiter]
        split
        · rfl
        · rfl
  exact ⟨[], appears 'a' (by decide), appears 'b' (by decide)⟩

theorem shows_readText_dollar : Shows (state.readText '$').1 := by
  rcases state with ⟨nest, mode, before, word, awaiting⟩
  cases nest with
  | nil => exact shows_of_dollar rfl
  | cons first rest => cases first with
    | parameter quoted begun =>
        cases begun with
        | false => exact ⟨[], rfl, rfl⟩
        | true => exact shows_of_dollar rfl
    | document delimiter line =>
        change Shows (State.readDocument _ delimiter line rest '$').1
        exact ⟨[], rfl, rfl⟩
    | _ => exact shows_of_dollar rfl

/-- In these modes a dollar sign or what comes after it is structure. -/
def Exposes : Mode → Prop
  | .text => True
  | .raw => True
  | .delimiter _ _ => True
  | .ansi _ => True
  | .backquotes _ => True
  | _ => False

theorem shows_step_dollar (exposes : Exposes state.mode) : Shows (state.step '$').1 := by
  rcases state with ⟨nest, mode, before, word, awaiting⟩
  cases mode with
  | text => exact shows_readText_dollar
  | raw => exact shows_of_raw rfl
  | delimiter delimiter quote =>
      cases quote with
      | none => exact shows_of_delimiter rfl
      | some mark =>
          change Shows (State.readDelimiter _ delimiter (some mark) '$').1
          rw [readDelimiter]
          dsimp only
          split
          · exact shows_of_delimiter rfl
          · exact shows_of_delimiter rfl
  | ansi escaped =>
      cases escaped with
      | false => exact ⟨[], rfl, rfl⟩
      | true => exact ⟨[], rfl, rfl⟩
  | backquotes escaped =>
      cases escaped with
      | false => exact ⟨[], rfl, rfl⟩
      | true => exact ⟨[], rfl, rfl⟩
  | _ => cases exposes

theorem mode_endLine : state.endLine.mode = .text := by
  rw [endLine]
  cases state.awaiting with
  | nil => rfl
  | cons delimiter later => rfl

theorem mode_readText_newline : (state.readText '\n').1.mode = .text := by
  have command : (state.readCommand '\n').1.mode = .text := by
    rw [readCommand, if_neg (by decide), if_neg (by decide),
      if_neg (fun both => absurd both.1 (by decide)), if_pos rfl]
    exact mode_endLine
  rcases state with ⟨nest, mode, before, word, awaiting⟩
  cases nest with
  | nil => exact command
  | cons first rest => cases first with
    | substitution => exact command
    | group => exact command
    | cases => exact command
    | elements => exact command
    | document delimiter line =>
        change (State.readDocument _ delimiter line rest '\n').1.mode = .text
        rw [readDocument, if_pos rfl]
        split
        · exact mode_endLine
        · rfl
    | parameter quoted begun => cases begun with
      | false => rfl
      | true => rfl
    | arithmetic closing =>
        change (State.readArithmetic _ closing rest '\n').1.mode = .text
        rw [readArithmetic, expanding, if_neg (by decide), if_neg (by decide)]
        split
        · rfl
        · rfl
    | _ => rfl

/-- What a quotation mark can lead to where it does not begin a quotation. -/
def Ready : Mode → Prop
  | .comment => True
  | mode => Exposes mode

theorem exposes_step_newline (ready : Ready state.mode) :
    Exposes (state.step '\n').1.mode := by
  rcases state with ⟨nest, mode, before, word, awaiting⟩
  have read : ∀ own : State, Exposes (own.readText '\n').1.mode := by
    intro own
    rw [mode_readText_newline]
    trivial
  cases mode with
  | text => exact read _
  | comment => exact read _
  | raw => trivial
  | delimiter delimiter quote =>
      cases quote with
      | some mark =>
          change Exposes (State.readDelimiter _ delimiter (some mark) '\n').1.mode
          rw [readDelimiter]
          dsimp only
          split
          · trivial
          · trivial
      | none =>
          change Exposes (State.readDelimiter _ delimiter none '\n').1.mode
          rw [readDelimiter]
          dsimp only
          rw [if_neg (by decide), if_neg (by decide), if_neg (by decide)]
          split
          · exact read _
          · exact read _
  | ansi escaped => cases escaped with
    | false => trivial
    | true => trivial
  | backquotes escaped => cases escaped with
    | false => trivial
    | true => trivial
  | _ => cases ready

theorem ready_readText_quote (quoted : state.isUnquoted = false) :
    Ready (state.readText '\'').1.mode := by
  rcases state with ⟨nest, mode, before, word, awaiting⟩
  cases nest with
  | nil => cases quoted
  | cons first rest => cases first with
    | double => trivial
    | quotedBraces => trivial
    | parameter own begun => cases begun with
      | false => trivial
      | true => trivial
    | arithmetic closing =>
        change Ready (State.readArithmetic _ closing rest '\'').1.mode
        rw [readArithmetic, expanding, if_neg (by decide), if_neg (by decide)]
        split
        · trivial
        · trivial
    | document delimiter line =>
        trivial
    | _ => cases quoted

theorem ready_step_quote (other : state.isPlain = false) : Ready (state.step '\'').1.mode := by
  rcases state with ⟨nest, mode, before, word, awaiting⟩
  have text : ∀ own : State, own.isUnquoted = false → Ready (own.readText '\'').1.mode :=
    fun own => ready_readText_quote
  cases mode with
  | text => exact text _ (by simpa [isPlain] using other)
  | opened => exact text _ (by simpa [isPlain] using other)
  | parenthesis => exact text _ (by simpa [isPlain] using other)
  | less => exact text _ (by simpa [isPlain] using other)
  | greater => exact text _ (by simpa [isPlain] using other)
  | announced => trivial
  | delimiter delimiter quote =>
      cases quote with
      | some mark =>
          change Ready (State.readDelimiter _ delimiter (some mark) '\'').1.mode
          rw [readDelimiter]
          dsimp only
          split
          · trivial
          · trivial
      | none => trivial
  | dollar =>
      change Ready (State.readDollar _ '\'').1.mode
      rw [readDollar, if_neg (by decide), if_neg (by decide), if_neg (by decide)]
      split
      · trivial
      · next quoted =>
          rw [if_neg (by decide)]
          exact text _ (by simpa using quoted)
  | colon => cases nest with
    | nil => trivial
    | cons first rest => cases first with
      | _ => trivial
  | escaped own => cases nest with
    | nil => trivial
    | cons first rest => cases first with
      | _ => trivial
  | single => trivial
  | comment => trivial
  | raw => trivial
  | ansi escaped => cases escaped with
    | false => trivial
    | true => trivial
  | backquotes escaped => cases escaped with
    | false => trivial
    | true => trivial

/-- Where no quotation begins, a quoted value can take part in the structure: what it
brings into it differs between two values. -/
theorem shows_scan (other : state.isPlain = false) : Shows (state.scan ['\'', '\n', '$']).1 :=
  shows_step_dollar (exposes_step_newline (ready_step_quote other))

end State

/-- The characters of a script that the shell does not take literally. -/
def structureOf (script : List Char) : List Char :=
  (State.scan {} script).2

example : structureOf "echo 'a b' \"c $d\"".toList = "echo  \"$d\"".toList := by decide

-- The element of an array is arithmetic, also behind quotes.
example : structureOf "a['$(id)']=1".toList = "a['$(id)']=1".toList := by decide

-- The lines of a here-document end it also between quotes.
example : structureOf "cat <<E\n$(echo '\nE\n'x'".toList = "cat <<E\n$(echo '\nE\n".toList := by
  decide

end ShellScan
