import HarnessAgent.Executor.NodeExecution
import HarnessAgent.Foundation.TextScan

/-! # Completion tags in the output of a loop

The chunks of an iteration are stripped of completion tags one by one, and their
cleaned texts are joined. The regular expressions are case insensitive, so they
depend on the Unicode tables of their library.
-/

namespace HarnessAgent

open Text

/-- What the regular expression library brings in: characters that differ only in
their case, word characters, and whether the pattern of a signal compiles. -/
structure RegexTables where
  sameCase : Char → Char → Bool
  isWord : Char → Bool
  compiles : String → Bool

namespace CompletionTags

variable (tables : RegexTables)

def isTagStart (character : Char) : Bool :=
  isAsciiLetter character || character.toNat = 0x17F || character.toNat = 0x212A

def promise : Matcher Unit :=
  (Matcher.literal "<").bind fun _ =>
    (Matcher.folded tables.sameCase "promise".toList).bind fun _ =>
      (Matcher.literal ">").bind fun _ =>
        ((Matcher.literal "</").bind fun _ =>
          (Matcher.folded tables.sameCase "promise".toList).bind fun _ =>
            Matcher.literal ">").anywhere

/-- A signal between two tags: the opening tag without its brackets, and the name
in the closing tag. -/
def wrappedSignal (signal : String) : Matcher (List Char × List Char) :=
  (Matcher.literal "<").bind fun _ =>
    (Matcher.bracketed isTagStart fun character => character ≠ '>').bind fun openInner =>
      ((Matcher.folded tables.sameCase signal.toList).bind fun _ =>
        ((Matcher.literal "</").bind fun _ =>
          (Matcher.bracketed isTagStart fun character =>
              tables.isWord character || character == '-').bind fun close =>
            Matcher.pure (openInner, close)).afterSpaces).afterSpaces

/-- Whether the closing name is a prefix of the opening tag. Slicing the tag inside
a character panics. -/
def closeIsBackrefOfOpen (openInner close : List Char) : Option Bool :=
  if close = [] || byteLength openInner < byteLength close then some false
  else
    (takeBytes (byteLength close) openInner).map fun start =>
      start.map Char.toLower == close.map Char.toLower

def findPromise (text : List Char) : Option (Option (List Char) × List Char) :=
  (promise tables text).map fun found => (some [], found.2)

def findWrappedSignal (signal : String) (text : List Char) :
    Option (Option (List Char) × List Char) :=
  (wrappedSignal tables signal text).map fun found =>
    ((closeIsBackrefOfOpen found.1.1 found.1.2).map fun matching =>
      if matching then [] else text.take (text.length - found.2.length), found.2)

def stripXmlWrappedSignal (signal : String) (text : List Char) : Option (List Char) :=
  if tables.compiles signal then replaceMatches (findWrappedSignal tables signal) 0 text
  else some text

def stripCompletionTags (content : String) (signal : Option String) : Option String :=
  (replaceMatches (findPromise tables) 0 content.toList).bind fun withoutPromise =>
    let stripped :=
      match signal with
      | some signal => stripXmlWrappedSignal tables signal withoutPromise
      | none => some withoutPromise
    stripped.map fun result => String.ofList (trim result)

def streamAssistant (signal : String) : List String → LoopPass → Option LoopPass
  | [], pass => some pass
  | content :: chunks, pass =>
      (stripCompletionTags tables content (some signal)).bind fun cleaned =>
        streamAssistant signal chunks
          { pass with fullOutput := pass.fullOutput ++ content,
                      cleanOutput := pass.cleanOutput ++ cleaned }

section Tags

inductive CompletionTag (signal : String) : List Char → Prop
  | promise {text : List Char} (found : promise tables text = some ((), [])) :
      CompletionTag signal text
  | wrapped {text openInner close : List Char} (compiles : tables.compiles signal = true)
      (found : wrappedSignal tables signal text = some ((openInner, close), []))
      (matching : closeIsBackrefOfOpen openInner close ≠ some false) :
      CompletionTag signal text

variable {tables} {signal : String} {text : List Char}

theorem starts_of_bind_literal {α : Type} {later : Unit → Matcher α} {found : α × List Char}
    (matched : (Matcher.literal "<").bind later text = some found) :
    ∃ rest, text = '<' :: rest := by
  cases text with
  | nil => cases matched
  | cons character rest =>
      by_cases same : character = '<'
      · exact ⟨rest, by rw [same]⟩
      · have differs : Matcher.literal "<" (character :: rest) = none := by
          simp [Matcher.literal, Matcher.folded, same]
        rw [Matcher.bind, differs] at matched
        cases matched

theorem stable_promise : (promise tables).Stable := by
  apply (Matcher.exact_literal _).bind_stable
  intro _
  apply (Matcher.exact_folded _ _).bind_stable
  intro _
  apply (Matcher.exact_literal _).bind_stable
  intro _
  apply Matcher.Stable.anywhere
  apply (Matcher.exact_literal _).bind_stable
  intro _
  apply (Matcher.exact_folded _ _).bind_stable
  intro _
  exact (Matcher.exact_literal _).stable

theorem stable_wrappedSignal : (wrappedSignal tables signal).Stable := by
  apply (Matcher.exact_literal _).bind_stable
  intro _
  apply (Matcher.exact_bracketed _ _).bind_stable
  intro openInner
  apply Matcher.Stable.afterSpaces
  apply (Matcher.exact_folded _ _).bind_stable
  intro _
  apply Matcher.Stable.afterSpaces
  apply (Matcher.exact_literal _).bind_stable
  intro _
  apply (Matcher.exact_bracketed _ _).bind_stable
  intro close
  exact (Matcher.exact_pure _).stable

theorem split_of_stable {α : Type} {later : Unit → Matcher α} {value : α}
    {remaining : List Char} (stable : ((Matcher.literal "<").bind later).Stable)
    (found : (Matcher.literal "<").bind later text = some (value, remaining)) :
    ∃ inner, text = '<' :: inner ++ remaining ∧
      (Matcher.literal "<").bind later ('<' :: inner) = some (value, []) := by
  rcases stable.truncates found with ⟨matched, split, alone⟩
  rcases starts_of_bind_literal alone with ⟨inner, rfl⟩
  exact ⟨inner, split, alone⟩

theorem split_findPromise {replacement : Option (List Char)} {remaining : List Char}
    (found : findPromise tables text = some (replacement, remaining)) :
    ∃ inner, text = '<' :: inner ++ remaining ∧ replacement = some [] ∧
      CompletionTag tables signal ('<' :: inner) := by
  rcases Option.map_eq_some_iff.mp found with ⟨⟨_, rest⟩, matched, same⟩
  cases same
  rcases split_of_stable stable_promise matched with ⟨inner, split, alone⟩
  exact ⟨inner, split, rfl, .promise alone⟩

theorem split_findWrappedSignal {replacement : Option (List Char)} {remaining : List Char}
    (found : findWrappedSignal tables signal text = some (replacement, remaining)) :
    ∃ inner openInner close, text = '<' :: inner ++ remaining ∧
      wrappedSignal tables signal ('<' :: inner) = some ((openInner, close), []) ∧
      replacement = (closeIsBackrefOfOpen openInner close).map fun matching =>
        if matching then [] else '<' :: inner := by
  rcases Option.map_eq_some_iff.mp found with ⟨⟨⟨openInner, close⟩, rest⟩, matched, same⟩
  cases same
  rcases split_of_stable stable_wrappedSignal matched with ⟨inner, rfl, alone⟩
  refine ⟨inner, openInner, close, rfl, alone, ?_⟩
  dsimp only
  rw [List.length_append, Nat.add_sub_cancel, List.take_left]

theorem isWhitespace_lt : isWhitespace '<' = false := by decide

theorem erases_findPromise : Erases (findPromise tables) where
  shown {character rest found} matched := by
    rcases @split_findPromise tables "" _ found.1 found.2 matched with ⟨inner, split, -⟩
    cases split
    exact isWhitespace_lt
  splits {character rest replacement remaining} matched := by
    rcases @split_findPromise tables "" _ replacement remaining matched with
      ⟨inner, split, rfl, -⟩
    rcases List.cons_eq_cons.mp split with ⟨rfl, rfl⟩
    refine ⟨inner, rfl, ?_⟩
    intro replaced given
    cases given
    exact .inl rfl

theorem erases_findWrappedSignal : Erases (findWrappedSignal tables signal) where
  shown {character rest found} matched := by
    rcases @split_findWrappedSignal tables signal _ found.1 found.2 matched with
      ⟨inner, _, _, split, -⟩
    cases split
    exact isWhitespace_lt
  splits {character rest replacement remaining} matched := by
    rcases split_findWrappedSignal matched with ⟨inner, openInner, close, split, -, rfl⟩
    rcases List.cons_eq_cons.mp split with ⟨rfl, rfl⟩
    refine ⟨inner, rfl, ?_⟩
    intro replaced given
    rcases Option.map_eq_some_iff.mp given with ⟨matching, -, rfl⟩
    cases matching with
    | false => exact .inr rfl
    | true => exact .inl rfl

/-- Both passes, before the result is trimmed. -/
def passes (tables : RegexTables) (signal : String) (text : List Char) : Option (List Char) :=
  (replaceMatches (findPromise tables) 0 text).bind (stripXmlWrappedSignal tables signal)

theorem stripXmlWrappedSignal_keeps_or_removes {result : List Char}
    (stripped : stripXmlWrappedSignal tables signal text = some result) :
    result = text ∨ (visible result).length < (visible text).length := by
  rw [stripXmlWrappedSignal] at stripped
  split at stripped
  · exact erases_findWrappedSignal.keeps_or_removes stripped
  · cases stripped
    exact .inl rfl

theorem passes_keeps_or_removes (passed : passes tables signal text = some result) :
    result = text ∨ (visible result).length < (visible text).length := by
  rcases Option.bind_eq_some_iff.mp passed with ⟨middle, first, second⟩
  have firstPass := erases_findPromise.keeps_or_removes first
  rw [List.drop_zero] at firstPass
  rcases firstPass with rfl | fewer
  · exact stripXmlWrappedSignal_keeps_or_removes second
  · right
    rcases stripXmlWrappedSignal_keeps_or_removes second with rfl | evenFewer
    · exact fewer
    · exact evenFewer.trans fewer

theorem passes_of_no_tag
    (untagged : ∀ part, part <:+: text → ¬CompletionTag tables signal part) :
    passes tables signal text = some text := by
  have first : replaceMatches (findPromise tables) 0 text = some text := by
    apply replaceMatches_unchanged
    intro rest suffix replacement remaining found
    rcases split_findPromise found with ⟨inner, rfl, -, tag⟩
    have inside : '<' :: inner <:+: text := (List.prefix_append _ _).isInfix.trans suffix.isInfix
    exact absurd tag (untagged _ inside)
  rw [passes, first, Option.bind_some, stripXmlWrappedSignal]
  split
  next compiles =>
    apply replaceMatches_unchanged
    intro rest suffix replacement remaining found
    rcases split_findWrappedSignal found with ⟨inner, openInner, close, rfl, alone, rfl⟩
    have inside : '<' :: inner <:+: text := (List.prefix_append _ _).isInfix.trans suffix.isInfix
    refine ⟨'<', inner, rfl, ?_⟩
    by_cases matching : closeIsBackrefOfOpen openInner close = some false
    · rw [matching]
      rfl
    · exact absurd (.wrapped compiles alone matching) (untagged _ inside)
  next => rfl

theorem passes_of_tag (tag : CompletionTag tables signal text) :
    passes tables signal text ≠ some text := by
  intro passed
  rcases Option.bind_eq_some_iff.mp passed with ⟨middle, first, second⟩
  have unchanged : middle = text := by
    have firstPass := erases_findPromise.keeps_or_removes first
    rw [List.drop_zero] at firstPass
    rcases firstPass with same | fewer
    · exact same
    · rcases stripXmlWrappedSignal_keeps_or_removes second with same | evenFewer
      · exact same.symm
      · omega
  subst unchanged
  cases tag with
  | promise found =>
      rcases starts_of_bind_literal found with ⟨rest, rfl⟩
      have erased : findPromise tables ('<' :: rest) = some (some [], []) := by
        rw [findPromise, found]
        rfl
      have fewer := erases_findPromise.removes_start erased
        (fun replaced given => (Option.some.inj given).symm) first
      omega
  | @wrapped openInner close compiles found matching =>
      rcases starts_of_bind_literal found with ⟨rest, rfl⟩
      rw [stripXmlWrappedSignal, if_pos compiles] at second
      have occurrence : findWrappedSignal tables signal ('<' :: rest) =
          some ((closeIsBackrefOfOpen openInner close).map fun matching =>
            if matching then [] else '<' :: rest, []) := by
        rw [findWrappedSignal, found]
        simp
      have fewer := erases_findWrappedSignal.removes_start occurrence ?_ second
      · omega
      · intro replaced given
        rcases Option.map_eq_some_iff.mp given with ⟨isMatching, decided, rfl⟩
        cases isMatching with
        | true => rfl
        | false => exact absurd decided matching

theorem CompletionTag.length (tag : CompletionTag tables signal text) : 2 ≤ text.length := by
  have atLeast {rest : List Char} (more : rest ≠ []) : 2 ≤ ('<' :: rest).length := by
    have positive := List.length_pos_iff.mpr more
    rw [List.length_cons]
    omega
  cases tag with
  | promise found =>
      rcases starts_of_bind_literal found with ⟨rest, rfl⟩
      apply atLeast
      intro empty
      subst empty
      cases found
  | wrapped compiles found matching =>
      rcases starts_of_bind_literal found with ⟨rest, rfl⟩
      apply atLeast
      intro empty
      subst empty
      cases found

theorem passes_of_short (short : text.length ≤ 1) : passes tables signal text = some text := by
  apply passes_of_no_tag
  intro part inside tag
  have longer := tag.length
  have shorter := inside.length_le
  omega

def strip (tables : RegexTables) (signal : String) (text : List Char) : Option (List Char) :=
  (passes tables signal text).map trim

theorem strips (tables : RegexTables) (signal : String) : Strips (strip tables signal) where
  nil := by
    rw [strip, passes_of_short (Nat.zero_le _)]
    rfl
  single character := by
    rw [strip, passes_of_short le_rfl]
    rfl
  trims_or_removes {part stripped} found := by
    rcases Option.map_eq_some_iff.mp found with ⟨result, passed, rfl⟩
    rw [visible_trim]
    rcases passes_keeps_or_removes passed with rfl | fewer
    · exact .inl rfl
    · exact .inr fewer

theorem strip_eq_trim_iff :
    (∀ part, part <:+: text → strip tables signal part = some (trim part)) ↔
      ∀ part, part <:+: text → ¬CompletionTag tables signal part := by
  constructor
  · intro trimmed part inside tag
    rcases Option.map_eq_some_iff.mp (trimmed part inside) with ⟨result, passed, same⟩
    rcases passes_keeps_or_removes passed with rfl | fewer
    · exact passes_of_tag tag passed
    · have equal := congrArg (fun list => (visible list).length) same
      simp only [visible_trim] at equal
      omega
  · intro untagged part inside
    have passed : passes tables signal part = some part := by
      apply passes_of_no_tag
      intro inner within
      exact untagged inner (within.trans inside)
    rw [strip, passed]
    rfl

theorem stripCompletionTags_eq (content : String) :
    stripCompletionTags tables content (some signal) =
      (strip tables signal content.toList).map String.ofList := by
  rw [stripCompletionTags, strip, passes, Option.map_map]
  cases replaceMatches (findPromise tables) 0 content.toList with
  | none => rfl
  | some middle => rfl

theorem streamAssistant_eq (chunks : List String) (pass : LoopPass) :
    streamAssistant tables signal chunks pass =
      ((chunks.map String.toList).mapM (strip tables signal)).map fun cleaned =>
        { pass with
          fullOutput := pass.fullOutput ++ String.join chunks
          cleanOutput := pass.cleanOutput ++ String.ofList cleaned.flatten } := by
  induction chunks generalizing pass with
  | nil =>
      rw [streamAssistant, List.map_nil, List.mapM_nil, String.join_nil]
      simp
  | cons content chunks induction =>
      rw [streamAssistant, stripCompletionTags_eq, List.map_cons, List.mapM_cons]
      cases strip tables signal content.toList with
      | none => rfl
      | some stripped =>
          simp only [Option.map_some, Option.bind_some, induction]
          cases (chunks.map String.toList).mapM (strip tables signal) with
          | none => rfl
          | some cleaned =>
              simp [String.append_assoc, String.ofList_append]

theorem lastOutput_eq (state : NodeEnvironment.LoopState) (prompt full : String)
    (cleaned : List (List Char)) :
    (state.afterPass prompt
      { fullOutput := full, cleanOutput := String.ofList cleaned.flatten }).lastOutput =
        String.ofList (cleanedOr full.toList cleaned) := by
  have empty : String.ofList cleaned.flatten = "" ↔ cleaned.flatten = [] := by
    rw [← String.toList_inj, String.toList_ofList]
    rfl
  rw [NodeEnvironment.LoopState.afterPass, cleanedOr]
  dsimp only
  by_cases nothing : cleaned.flatten = []
  · rw [if_pos (empty.mpr nothing), if_pos nothing, String.ofList_toList]
  · rw [if_neg (nothing ∘ empty.mp), if_neg nothing]

theorem streamAssistant_lastOutput {text : String} (joined : String.join chunks = text) :
    (∃ pass stripped, streamAssistant tables signal chunks {} = some pass ∧
      stripCompletionTags tables text (some signal) = some stripped ∧
      ∀ (state : NodeEnvironment.LoopState) (prompt : String),
        (state.afterPass prompt pass).lastOutput = stripped) ↔
      ∃ cleaned, (chunks.map String.toList).mapM (strip tables signal) = some cleaned ∧
        strip tables signal text.toList = some (cleanedOr text.toList cleaned) := by
  have outputs (cleaned : List (List Char)) : ({
      fullOutput := ({} : LoopPass).fullOutput ++ text
      cleanOutput := ({} : LoopPass).cleanOutput ++ String.ofList cleaned.flatten } : LoopPass) =
      { fullOutput := text, cleanOutput := String.ofList cleaned.flatten } := by
    simp
  rw [streamAssistant_eq, stripCompletionTags_eq, joined]
  constructor
  · intro streamed
    rcases streamed with ⟨pass, stripped, passed, whole, last⟩
    rcases Option.map_eq_some_iff.mp passed with ⟨cleaned, mapped, rfl⟩
    rcases Option.map_eq_some_iff.mp whole with ⟨result, found, rfl⟩
    have same := last {} ""
    rw [outputs, lastOutput_eq] at same
    rw [← String.ofList_inj.mp same] at found
    exact ⟨cleaned, mapped, found⟩
  · intro cleans
    rcases cleans with ⟨cleaned, mapped, found⟩
    rw [mapped, found]
    refine ⟨_, _, rfl, rfl, ?_⟩
    intro state prompt
    dsimp only
    rw [outputs, lastOutput_eq]

end Tags

end CompletionTags

open CompletionTags

/-- What an iteration leaves for later nodes is the stripped text of its chunks,
however the text is cut, exactly when the text is empty, or has visible characters
without white space between them and no part that is a completion tag. -/
theorem streamAssistant_lastOutput_iff (tables : RegexTables) (signal text : String) :
    (∀ chunks : List String, String.join chunks = text →
      ∃ pass stripped, streamAssistant tables signal chunks {} = some pass ∧
        stripCompletionTags tables text (some signal) = some stripped ∧
        ∀ (state : NodeEnvironment.LoopState) (prompt : String),
          (state.afterPass prompt pass).lastOutput = stripped) ↔
      text = "" ∨ ¬Blank text.toList ∧ Solid text.toList ∧
        ∀ part, part <:+: text.toList → ¬CompletionTag tables signal part := by
  have empty : text = "" ↔ text.toList = [] := by
    rw [← String.toList_inj]
    rfl
  rw [empty, ← strip_eq_trim_iff, ← (strips tables signal).chunks_iff text.toList]
  constructor
  · intro streams chunks joined
    have texts : (chunks.map String.ofList).map String.toList = chunks := by
      rw [List.map_map]
      exact List.map_id'' (fun chunk => String.toList_ofList) chunks
    have whole : String.join (chunks.map String.ofList) = text := by
      rw [← String.toList_inj, String.toList_join, List.flatMap, texts, joined]
    have cleans := (streamAssistant_lastOutput whole).mp (streams _ whole)
    rw [texts] at cleans
    exact cleans
  · intro cleans chunks joined
    apply (streamAssistant_lastOutput joined).mpr
    apply cleans
    rw [← joined, String.toList_join]
    rfl

namespace CompletionTags

def asciiTables : RegexTables where
  sameCase := fun wanted character => wanted.toLower = character.toLower
  isWord := fun character => isAsciiLetter character || isAsciiDigit character || character == '_'
  compiles := fun _ => true

end CompletionTags

theorem streamAssistant_lastOutput_cut :
    ¬∀ (text : String) (chunks : List String), String.join chunks = text →
      ∃ pass stripped, streamAssistant asciiTables "DONE" chunks {} = some pass ∧
        stripCompletionTags asciiTables text (some "DONE") = some stripped ∧
        ∀ (state : NodeEnvironment.LoopState) (prompt : String),
          (state.afterPass prompt pass).lastOutput = stripped := by
  intro always
  rcases always "all good" ["all ", "good"] (by decide) with
    ⟨pass, stripped, streamed, whole, last⟩
  have output := last {} ""
  have cut : streamAssistant asciiTables "DONE" ["all ", "good"] {} =
      some { fullOutput := "all good", cleanOutput := "allgood" } := by decide
  have kept : stripCompletionTags asciiTables "all good" (some "DONE") = some "all good" := by
    decide
  rw [cut] at streamed
  rw [kept] at whole
  cases streamed
  cases whole
  revert output
  decide

end HarnessAgent
