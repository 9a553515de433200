import HarnessAgent.Foundation.TextSplit
import Mathlib.Data.List.DropRight

/-! # Words of a shell

The expansion of a word that is put together from unquoted characters, quoted ones, and
commands that print a file. Quotes keep what is in them. The output of an unquoted command
loses the newlines at its end, is split into fields at its blanks, and a field that is a
pattern is replaced by the paths that it matches.
-/

namespace ShellWord

/-! ## Quoting -/

/-- A pair of quotes leaves something behind even if there is nothing between them. -/
inductive Token
  | quotes
  | quoted (character : Char)
  | plain (character : Char)
  deriving DecidableEq, Repr

inductive Quoting
  | unquoted
  | single
  | escaped
  deriving DecidableEq, Repr

/-- Takes the quotes off; a text that ends inside of them is not a word. -/
def tokens : Quoting → List Char → Option (List Token)
  | .unquoted, [] => some []
  | .single, [] => none
  | .escaped, [] => none
  | .unquoted, character :: rest =>
      if character = '\'' then (tokens .single rest).map (.quotes :: ·)
      else if character = '\\' then tokens .escaped rest
      else (tokens .unquoted rest).map (.plain character :: ·)
  | .single, character :: rest =>
      if character = '\'' then tokens .unquoted rest
      else (tokens .single rest).map (.quoted character :: ·)
  | .escaped, character :: rest =>
      -- An escaped newline joins two lines.
      if character = '\n' then tokens .unquoted rest
      else (tokens .unquoted rest).map (.quoted character :: ·)

/-- A text in single quotes, which are closed around an escaped quote. -/
def enclosed (text : List Char) : List Char :=
  '\'' :: (text.flatMap fun character =>
    if character = '\'' then ['\'', '\\', '\'', '\''] else [character]) ++ ['\'']

def enclosedTokens (text : List Char) : List Token :=
  .quotes :: text.flatMap fun character =>
    if character = '\'' then [.quoted character, .quotes] else [.quoted character]

theorem tokens_enclosed (text rest : List Char) :
    tokens .unquoted (enclosed text ++ rest) =
      (tokens .unquoted rest).map (enclosedTokens text ++ ·) := by
  have inside : ∀ part : List Char,
      tokens .single ((part.flatMap fun character =>
          if character = '\'' then ['\'', '\\', '\'', '\''] else [character]) ++
            '\'' :: rest) =
        (tokens .unquoted rest).map ((part.flatMap fun character =>
          if character = '\'' then [Token.quoted character, .quotes]
          else [.quoted character]) ++ ·) := by
    intro part
    induction part with
    | nil => simp [tokens]
    | cons character part induction =>
        rw [List.flatMap_cons, List.flatMap_cons, List.append_assoc]
        split
        · next quote =>
            subst quote
            simp [tokens, induction, Function.comp_def]
        · next other => simp [tokens, other, induction, Function.comp_def]
  rw [enclosed, List.cons_append, List.cons_append, List.append_assoc, List.singleton_append,
    tokens, if_pos rfl, inside, Option.map_map]
  rfl

/-! ## Parts of a word -/

/-- A part of a word: a token that stands for itself, or a command whose output takes its
place. -/
inductive Part
  | token (token : Token)
  | output (command : List Token)
  deriving DecidableEq, Repr

/-- What can begin something else than a literal character when it is not quoted. -/
def reserved : List Char :=
  "|&;<>()$`\"\\' \t\n#~={}!".toList

def Token.isOrdinary : Token → Bool
  | .plain character => character ∉ reserved
  | _ => true

inductive Place
  | word
  | dollar
  | command (read : List Token)
  deriving DecidableEq, Repr

def parts : Place → List Token → Option (List Part)
  | .word, [] => some []
  | .dollar, [] => none
  | .command _, [] => none
  | .word, token :: rest =>
      if token = .plain '$' then parts .dollar rest
      else if token.isOrdinary then (parts .word rest).map (.token token :: ·)
      else none
  | .dollar, token :: rest => if token = .plain '(' then parts (.command []) rest else none
  | .command read, token :: rest =>
      if token = .plain ')' then (parts .word rest).map (.output read :: ·)
      else parts (.command (read ++ [token])) rest

theorem parts_command {command : List Token} (inside : .plain ')' ∉ command)
    (read rest : List Token) :
    parts (.command read) (command ++ .plain ')' :: rest) =
      (parts .word rest).map (.output (read ++ command) :: ·) := by
  induction command generalizing read with
  | nil => rw [List.nil_append, parts, if_pos rfl, List.append_nil]
  | cons token command induction =>
      have other : token ≠ .plain ')' := fun same => inside (by simp [same])
      have later : .plain ')' ∉ command := fun member => inside (List.mem_cons_of_mem _ member)
      rw [List.cons_append, parts, if_neg other, induction later, List.append_assoc]
      rfl

theorem parts_ordinary {tokens : List Token}
    (ordinary : ∀ token ∈ tokens, token.isOrdinary = true) :
    parts .word tokens = some (tokens.map .token) := by
  induction tokens with
  | nil => rfl
  | cons token tokens induction =>
      have first := ordinary token List.mem_cons_self
      have other : token ≠ .plain '$' := by
        intro same
        rw [same] at first
        exact absurd first (by decide)
      rw [parts, if_neg other, if_pos first,
        induction fun token member => ordinary token (List.mem_cons_of_mem _ member)]
      rfl

/-! ## Commands -/

def Token.character : Token → Option Char
  | .quotes => none
  | .quoted character => some character
  | .plain character => some character

def isPatternCharacter (character : Char) : Bool :=
  character == '*' || character == '?' || character == '['

def Token.isPattern : Token → Bool
  | .plain character => isPatternCharacter character
  | _ => false

def argument (word : List Token) : Option String :=
  if word.all (fun token => token.isOrdinary && !token.isPattern) then
    some (String.ofList (word.filterMap Token.character))
  else none

/-- What a command prints: the one command that is run here copies a file. -/
def printed (files : List (String × String)) (command : List Token) : Option String := do
  let words := (command.splitOnP (· = .plain ' ')).filter (· ≠ [])
  match ← words.mapM argument with
  | [name, path] => if name = "cat" then files.lookup path else none
  | _ => none

/-- The characters that a command substitution brings into a word: those that the command
printed, but no NUL and no newline at the end. -/
def captured (text : String) : List Char :=
  (text.toList.filter (· ≠ '\x00')).rdropWhile (· = '\n')

/-! ## Fields -/

inductive Piece
  | token (token : Token)
  | output (character : Char)
  deriving DecidableEq, Repr

def Piece.character : Piece → Option Char
  | .token single => single.character
  | .output character => some character

/-- The characters that separate fields where they come from an expansion. -/
def isBlank (character : Char) : Bool :=
  character == ' ' || character == '\t' || character == '\n'

def Piece.separates : Piece → Bool
  | .token _ => false
  | .output character => isBlank character

def Piece.isPattern : Piece → Bool
  | .token single => single.isPattern
  | .output character => isPatternCharacter character

abbrev Field := List Piece

def fields (pieces : List Piece) : List Field :=
  (pieces.splitOnP Piece.separates).filter (· ≠ [])

def Field.text (field : Field) : String :=
  String.ofList (field.filterMap Piece.character)

/-- What is around a shell: the files that it can print, and the paths that a field matches
as a pattern, none of which is longer than a path can be. -/
structure Surroundings where
  files : List (String × String)
  paths : Field → List String
  short : ∀ field, ∀ path ∈ paths field, path.utf8ByteSize < 4096

def Surroundings.writing (surroundings : Surroundings) (file : Option (String × String)) :
    Surroundings :=
  { surroundings with files := file.toList ++ surroundings.files }

theorem Surroundings.lookup_writing (surroundings : Surroundings) (path content : String) :
    (surroundings.writing (some (path, content))).files.lookup path = some content :=
  List.lookup_cons_self

theorem fields_eq_singleton (shown : pieces ≠ [])
    (whole : ∀ piece ∈ pieces, piece.separates = false) : fields pieces = [pieces] := by
  rw [fields, List.splitOnP_eq_singleton whole, List.filter_cons_of_pos (by simpa using shown)]
  rfl

variable (surroundings : Surroundings)

def Part.pieces : Part → Option (List Piece)
  | .token single => some [.token single]
  | .output command =>
      (printed surroundings.files command).map fun text => (captured text).map .output

/-- A pattern that matches nothing stays as it is. -/
def expandField (field : Field) : List String :=
  if field.any Piece.isPattern && !(surroundings.paths field).isEmpty then
    surroundings.paths field
  else [field.text]

def expandWord (text : String) : Option (List String) := do
  let tokens ← tokens .unquoted text.toList
  let parts ← parts .word tokens
  let pieces ← parts.mapM (Part.pieces surroundings)
  return (fields pieces.flatten).flatMap (expandField surroundings)

/-! ## Quoted words -/

theorem filterMap_enclosedTokens (text : List Char) :
    (enclosedTokens text).filterMap Token.character = text := by
  have inside : ∀ part : List Char,
      (part.flatMap fun character => if character = '\'' then [Token.quoted character, .quotes]
        else [.quoted character]).filterMap Token.character = part := by
    intro part
    induction part with
    | nil => rfl
    | cons character part induction =>
        rw [List.flatMap_cons, List.filterMap_append, induction]
        split
        · rfl
        · rfl
  exact inside text

variable {text : List Char} {token : Token}

theorem not_plain_of_mem_enclosedTokens (member : token ∈ enclosedTokens text) (character : Char) :
    token ≠ .plain character := by
  intro same
  subst same
  rcases List.mem_cons.mp member with wrong | inside
  · cases wrong
  · rcases List.mem_flatMap.mp inside with ⟨other, -, produced⟩
    split at produced
    · rcases List.mem_cons.mp produced with wrong | later
      · cases wrong
      · cases List.mem_singleton.mp later
    · cases List.mem_singleton.mp produced

theorem isOrdinary_of_mem_enclosedTokens (member : token ∈ enclosedTokens text) :
    token.isOrdinary = true := by
  cases token with
  | quotes => rfl
  | quoted character => rfl
  | plain character => exact absurd rfl (not_plain_of_mem_enclosedTokens member character)

theorem isPattern_of_mem_enclosedTokens (member : token ∈ enclosedTokens text) :
    token.isPattern = false := by
  cases token with
  | quotes => rfl
  | quoted character => rfl
  | plain character => exact absurd rfl (not_plain_of_mem_enclosedTokens member character)

theorem argument_enclosedTokens (text : String) :
    argument (enclosedTokens text.toList) = some text := by
  have literal : (enclosedTokens text.toList).all
      (fun token => token.isOrdinary && !token.isPattern) = true := by
    rw [List.all_eq_true]
    intro token member
    rw [isOrdinary_of_mem_enclosedTokens member, isPattern_of_mem_enclosedTokens member]
    rfl
  rw [argument, if_pos literal, filterMap_enclosedTokens, String.ofList_toList]

theorem mapM_token (tokens : List Token) :
    (tokens.map Part.token).mapM (Part.pieces surroundings) =
      some (tokens.map fun token => [Piece.token token]) := by
  induction tokens with
  | nil => rfl
  | cons token tokens induction =>
      rw [List.map_cons, List.mapM_cons, induction]
      rfl

theorem expandWord_enclosed (text : String) :
    expandWord surroundings (String.ofList (enclosed text.toList)) = some [text] := by
  have taken : tokens .unquoted (enclosed text.toList) = some (enclosedTokens text.toList) := by
    have split := tokens_enclosed text.toList []
    simpa [tokens] using split
  have whole : ∀ piece ∈ (enclosedTokens text.toList).map Piece.token,
      piece.separates = false := by
    intro piece member
    rcases List.mem_map.mp member with ⟨token, -, rfl⟩
    rfl
  have noPattern : ((enclosedTokens text.toList).map Piece.token).any Piece.isPattern = false := by
    rw [List.any_eq_false]
    intro piece member
    rcases List.mem_map.mp member with ⟨token, inside, rfl⟩
    rw [Piece.isPattern, isPattern_of_mem_enclosedTokens inside]
    exact Bool.false_ne_true
  have single : fields ((enclosedTokens text.toList).map Piece.token) =
      [(enclosedTokens text.toList).map Piece.token] :=
    fields_eq_singleton (List.cons_ne_nil _ _) whole
  have read : Field.text ((enclosedTokens text.toList).map Piece.token) = text := by
    rw [Field.text, List.filterMap_map]
    change String.ofList ((enclosedTokens text.toList).filterMap Token.character) = text
    rw [filterMap_enclosedTokens, String.ofList_toList]
  have flat : ((enclosedTokens text.toList).map fun token => [Piece.token token]).flatten =
      (enclosedTokens text.toList).map Piece.token := by
    rw [← List.flatMap_def]
    exact List.map_eq_flatMap.symm
  simp only [expandWord, String.toList_ofList, taken, Option.bind_eq_bind, Option.bind_some,
    parts_ordinary fun token => isOrdinary_of_mem_enclosedTokens, mapM_token, flat, single]
  rw [List.flatMap_singleton, expandField, noPattern, read]
  rfl

/-! ## Words read from a file -/

/-- The command that reads a file, with the name of the file in quotes. -/
def reading (path : String) : List Char :=
  "$(cat ".toList ++ enclosed path.toList ++ [')']

def catTokens (path : String) : List Token :=
  [.plain 'c', .plain 'a', .plain 't'] ++ .plain ' ' :: enclosedTokens path.toList

theorem parenthesis_not_mem_catTokens (path : String) : .plain ')' ∉ catTokens path := by
  intro member
  rcases List.mem_append.mp member with command | later
  · exact absurd command (by decide)
  · rcases List.mem_cons.mp later with wrong | name
    · exact absurd wrong (by decide)
    · exact not_plain_of_mem_enclosedTokens name ')' rfl

theorem tokens_reading (path : String) :
    tokens .unquoted (reading path) =
      some (.plain '$' :: .plain '(' :: (catTokens path ++ [.plain ')'])) := by
  have rest := tokens_enclosed path.toList [')']
  have last : tokens .unquoted [')'] = some [.plain ')'] := rfl
  rw [last] at rest
  change tokens .unquoted ('$' :: '(' :: 'c' :: 'a' :: 't' :: ' ' ::
    (enclosed path.toList ++ [')'])) = _
  simp [tokens, rest, catTokens]

variable {content : String}

theorem printed_catTokens {files : List (String × String)}
    (there : files.lookup path = some content) : printed files (catTokens path) = some content := by
  have name : (enclosedTokens path.toList).splitOnP (· = .plain ' ') =
      [enclosedTokens path.toList] := by
    apply List.splitOnP_eq_singleton
    intro token member
    exact decide_eq_false (not_plain_of_mem_enclosedTokens member ' ')
  have words : (catTokens path).splitOnP (· = .plain ' ') =
      [[.plain 'c', .plain 'a', .plain 't'], enclosedTokens path.toList] := by
    rw [catTokens, List.splitOnP_append_cons_of_forall_mem (by decide) _ (by decide), name]
  have shown : ([[.plain 'c', .plain 'a', .plain 't'], enclosedTokens path.toList].filter
      (· ≠ [])) = [[.plain 'c', .plain 'a', .plain 't'], enclosedTokens path.toList] := rfl
  have command : argument [.plain 'c', .plain 'a', .plain 't'] = some "cat" := by decide
  simp only [printed, words, shown, List.mapM_cons, List.mapM_nil, command,
    argument_enclosedTokens]
  exact there

theorem expandWord_reading (there : surroundings.files.lookup path = some content) :
    expandWord surroundings (String.ofList (reading path)) =
      some ((fields ((captured content).map .output)).flatMap (expandField surroundings)) := by
  have split : parts .word (.plain '$' :: .plain '(' :: (catTokens path ++ [.plain ')'])) =
      some [.output (catTokens path)] := by
    rw [parts, if_pos rfl, parts, if_pos rfl,
      parts_command (parenthesis_not_mem_catTokens path)]
    rfl
  simp only [expandWord, String.toList_ofList, tokens_reading, Option.bind_eq_bind,
    Option.bind_some, split, List.mapM_cons, List.mapM_nil, Part.pieces, printed_catTokens there]
  simp

example :
    expandWord { files := [("f", "x y\n")], paths := fun _ => [], short := by simp }
      "p$(cat 'f')q" = some ["px", "yq"] := by
  decide

/-! ## Long contents -/

theorem fields_text_output (text : List Char) :
    Field.text (text.map .output) = String.ofList text := by
  rw [Field.text, List.filterMap_map]
  exact congrArg String.ofList List.filterMap_some

/-- The characters of a content that do not reach a word or take it apart. -/
def IsLost (character : Char) : Prop :=
  isBlank character = true ∨ character = '\x00'

def Inert (content : List Char) : Prop :=
  content.any isPatternCharacter = false ∨ surroundings.paths (content.map .output) = []

theorem expandField_output_iff (long : 4096 ≤ content.utf8ByteSize) :
    expandField surroundings (content.toList.map .output) = [content] ↔
      Inert surroundings content.toList := by
  have sameTest : (content.toList.map Piece.output).any Piece.isPattern =
      content.toList.any isPatternCharacter := List.any_map
  rw [expandField, sameTest, Inert, fields_text_output, String.ofList_toList]
  cases pattern : content.toList.any isPatternCharacter with
  | false => simp
  | true =>
      cases matched : surroundings.paths (content.toList.map .output) with
      | nil => simp
      | cons path paths =>
          have bound := surroundings.short (content.toList.map .output) path
            (by rw [matched]; exact List.mem_cons_self)
          apply iff_of_false
          · intro same
            have first := (List.cons.inj same).1
            rw [first] at bound
            omega
          · simp

/-- A content that is longer than any path comes out of a command as one word exactly if
it has no blanks and no NUL and is not expanded to paths. -/
theorem fields_captured_iff (long : 4096 ≤ content.utf8ByteSize) :
    (fields ((captured content).map .output)).flatMap (expandField surroundings) = [content] ↔
      (∀ character ∈ content.toList, ¬IsLost character) ∧
        Inert surroundings content.toList := by
  have whole : (∀ character ∈ content.toList, ¬IsLost character) →
      (fields ((captured content).map .output)).flatMap (expandField surroundings) =
        expandField surroundings (content.toList.map .output) := by
    intro kept
    have shown : content.toList ≠ [] := by
      intro empty
      rw [← String.ofList_toList (s := content), empty] at long
      exact absurd long (by decide)
    have all : content.toList.filter (· ≠ '\x00') = content.toList := by
      rw [List.filter_eq_self]
      intro character member
      exact decide_eq_true fun none => kept character member (.inr none)
    have ends : captured content = content.toList := by
      rw [captured, all, List.rdropWhile_eq_self_iff]
      intro nonempty newline
      apply kept _ (List.getLast_mem nonempty)
      rw [of_decide_eq_true newline]
      exact .inl rfl
    rw [ends, fields_eq_singleton (by simpa using shown)]
    · exact List.flatMap_singleton _ _
    · intro piece member
      rcases List.mem_map.mp member with ⟨character, inside, rfl⟩
      rw [← Bool.not_eq_true]
      exact fun blank => kept character inside (.inl blank)
  constructor
  · intro same
    have kept : ∀ character ∈ content.toList, ¬IsLost character := by
      have here : content ∈ (fields ((captured content).map .output)).flatMap
          (expandField surroundings) := by
        rw [same]
        exact List.mem_singleton_self content
      rcases List.mem_flatMap.mp here with ⟨field, member, expanded⟩
      have part := (List.mem_filter.mp member).1
      rw [expandField] at expanded
      split at expanded
      · have bound := surroundings.short field content expanded
        omega
      · rw [List.mem_singleton.mp expanded]
        intro character inside lost
        rw [Field.text, String.toList_ofList] at inside
        rcases List.mem_filterMap.mp inside with ⟨piece, inField, shows⟩
        have noBlank := Text.not_separator_of_mem_splitOnP part piece inField
        rcases List.mem_map.mp ((Text.sublist_of_mem_splitOnP part).subset inField) with
          ⟨own, brought, rfl⟩
        cases shows
        rcases lost with blank | none
        · exact absurd blank (by simpa [Piece.separates] using noBlank)
        · have passed := (List.rdropWhile_prefix _ _).subset brought
          rw [List.mem_filter] at passed
          exact of_decide_eq_true passed.2 none
    rw [whole kept, expandField_output_iff surroundings long] at same
    exact ⟨kept, same⟩
  · rintro ⟨kept, inert⟩
    rw [whole kept]
    exact (expandField_output_iff surroundings long).mpr inert

end ShellWord
