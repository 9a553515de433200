import HarnessAgent.Foundation.JsonGrammar
import HarnessAgent.Foundation.SealedText
import HarnessAgent.Foundation.TextScan

/-! # Structured output from a transcript

A model that was asked for a JSON object may put prose before it or a fence around it.
The parser cuts these off, and only then has the text repaired.
-/

namespace HarnessAgent

namespace StructuredTranscript

open JsonGrammar

structure ParsedTranscript where
  value : Option Value
  repaired : Option String := none

def fence : List Char := ['`', '`', '`']

def stripOpeningFence (text : List Char) : List Char :=
  match Text.afterLiteral fence text with
  | some rest =>
      ((rest.dropWhile Text.isAsciiLetter).dropWhile (· == '\n')).dropWhile (· == '\r')
  | none => text

def stripClosingFence (text : List Char) : List Char :=
  if fence.isSuffixOf text then
    Text.trimEnd (((text.rdropWhile (· == '`')).rdropWhile (· == '\n')).rdropWhile (· == '\r'))
  else text

def stripCodeFences (text : List Char) : List Char :=
  stripClosingFence (stripOpeningFence text)

def firstBrace (text : List Char) : Option (List Char × List Char) :=
  if '{' ∈ text then some (text.takeWhile (· != '{'), text.dropWhile (· != '{')) else none

section Parse

variable (serde : SerdeJson) (jsonrepair : String → Option String)

def tryJsonParseObject (text : List Char) : Option Value :=
  match serde.fromStr (String.ofList text) with
  | some (.object members) => some (.object members)
  | _ => none

def parseCleaned (cleaned : List Char) : ParsedTranscript :=
  match tryJsonParseObject serde cleaned with
  | some value => { value := some value }
  | none =>
      match firstBrace cleaned with
      | none => { value := none }
      | some (before, region) =>
          match if before = [] then none else tryJsonParseObject serde region with
          | some value => { value := some value }
          | none =>
              if ':' ∈ region then
                { value := (jsonrepair (String.ofList region)).bind fun repaired =>
                    tryJsonParseObject serde repaired.toList
                  repaired := some (String.ofList region) }
              else { value := none }

def tryParseStructuredOutput (text : String) : ParsedTranscript :=
  let trimmed := Text.trim text.toList
  if trimmed = [] then { value := none }
  else parseCleaned serde jsonrepair (Text.trim (stripCodeFences trimmed))

end Parse

/-! ## Only objects -/

variable {value : Value}

variable {serde : SerdeJson}

theorem tryJsonParseObject_object
    (parsed : tryJsonParseObject serde text = some value) : ∃ members, value = .object members := by
  rw [tryJsonParseObject] at parsed
  split at parsed
  · cases parsed
    exact ⟨_, rfl⟩
  · cases parsed

theorem parseCleaned_object {jsonrepair : String → Option String}
    (found : (parseCleaned serde jsonrepair cleaned).value = some value) :
    ∃ members, value = .object members := by
  rw [parseCleaned] at found
  split at found
  next parsed =>
    cases found
    exact tryJsonParseObject_object parsed
  next =>
    split at found
    · cases found
    · split at found
      next parsed =>
        cases found
        split at parsed
        · cases parsed
        · exact tryJsonParseObject_object parsed
      next =>
        split at found
        · rcases Option.bind_eq_some_iff.mp found with ⟨repaired, -, parsed⟩
          exact tryJsonParseObject_object parsed
        · cases found

theorem tryParseStructuredOutput_object {jsonrepair : String → Option String}
    (found : (tryParseStructuredOutput serde jsonrepair text).value = some value) :
    ∃ members, value = .object members := by
  rw [tryParseStructuredOutput] at found
  split at found
  · cases found
  · exact parseCleaned_object found

/-! ## What the fences leave -/

def Closing (text : List Char) : Prop :=
  Text.Blank text ∨
    ∃ before marks after, Text.Blank before ∧ Text.Blank after ∧ 3 ≤ marks.length ∧
      (∀ character ∈ marks, character = '`') ∧ text = before ++ marks ++ after

variable {front : List Char}

/-- Nothing of an object with anything without braces before it is cut off at the front. -/
theorem stripOpeningFence_append (noBrace : '{' ∉ front) (rest : List Char) :
    ∃ kept, '{' ∉ kept ∧ stripOpeningFence (front ++ '{' :: rest) = kept ++ '{' :: rest := by
  have stops : ∀ {isPart : Char → Bool}, isPart '{' = false →
      ∀ character ∈ ('{' :: rest).head?, isPart character = false := by
    intro isPart other character member
    cases member
    exact other
  rw [stripOpeningFence, Text.Finder.afterLiteral_append (by decide : '{' ∉ fence) (by
    intro character member
    cases member
    rfl)]
  cases opened : Text.afterLiteral fence front with
  | none => exact ⟨front, noBrace, rfl⟩
  | some after =>
      have inside : after <:+ front := ⟨fence, List.isPrefixOf?_eq_some_iff_append_eq.mp opened⟩
      refine ⟨((after.dropWhile Text.isAsciiLetter).dropWhile (· == '\n')).dropWhile (· == '\r'),
        ?_, ?_⟩
      · intro brace
        apply noBrace
        apply inside.subset
        exact (((List.dropWhile_suffix _).trans (List.dropWhile_suffix _)).trans
          (List.dropWhile_suffix _)).subset brace
      · dsimp only [Option.map_some]
        rw [(Text.Finder.span_append (stops rfl) _).2, (Text.Finder.span_append (stops rfl) _).2,
          (Text.Finder.span_append (stops rfl) _).2]

/-- Cutting off the end of a text stops at a character that is no part of it. -/
theorem rdropWhile_append {cut : Char → Bool} {text : List Char} {last : Char}
    (kept : cut last = false) (ending : List Char) :
    ∃ front, front <+: ending ∧
      (text ++ [last] ++ ending).rdropWhile cut = text ++ [last] ++ front := by
  induction ending using List.reverseRecOn with
  | nil =>
      refine ⟨[], List.prefix_rfl, ?_⟩
      rw [List.append_nil]
      exact List.rdropWhile_concat_neg _ _ _ (by simp [kept])
  | append_singleton ending character induction =>
      rw [← List.append_assoc, List.rdropWhile_concat]
      split
      · rcases induction with ⟨front, inside, same⟩
        exact ⟨front, inside.trans (List.prefix_append _ _), same⟩
      · exact ⟨ending ++ [character], List.prefix_rfl, List.append_assoc _ _ _⟩

theorem rdropWhile_append_of_all (all : ∀ character ∈ ending, cut character = true)
    (text : List Char) : (text ++ ending).rdropWhile cut = text.rdropWhile cut := by
  rw [List.rdropWhile, List.reverse_append, List.dropWhile_append_of_pos, List.rdropWhile]
  intro character member
  exact all character (List.mem_reverse.mp member)

theorem stripClosingFence_object (text : List Char) :
    stripClosingFence (text ++ ['}']) = text ++ ['}'] := by
  rw [stripClosingFence, if_neg]
  intro closed
  rcases List.isSuffixOf_iff_suffix.mp closed with ⟨before, split⟩
  have last := congrArg List.getLast? split
  rw [List.getLast?_append, List.getLast?_append] at last
  exact absurd (Option.some.inj last) (by decide)

theorem stripClosingFence_fenced (blank : Text.Blank before) (long : 3 ≤ marks.length)
    (all : ∀ character ∈ marks, character = '`') (text : List Char) :
    stripClosingFence (text ++ ['}'] ++ (before ++ marks)) = text ++ ['}'] := by
  have ticks : marks = List.replicate (marks.length - 3) '`' ++ fence := by
    change marks = List.replicate (marks.length - 3) '`' ++ List.replicate 3 '`'
    rw [List.replicate_append_replicate, Nat.sub_add_cancel long]
    exact List.eq_replicate_of_mem all
  have closed : fence.isSuffixOf (text ++ ['}'] ++ (before ++ marks)) = true := by
    apply List.isSuffixOf_iff_suffix.mpr
    refine ⟨text ++ ['}'] ++ (before ++ List.replicate (marks.length - 3) '`'), ?_⟩
    conv => rhs; rw [ticks]
    simp
  rw [stripClosingFence, if_pos closed, ← List.append_assoc,
    rdropWhile_append_of_all (fun character member => by rw [all character member]; rfl)]
  rcases @rdropWhile_append (· == '`') text '}' rfl before with ⟨first, inFirst, same⟩
  rw [same]
  rcases @rdropWhile_append (· == '\n') text '}' rfl first with ⟨second, inSecond, same⟩
  rw [same]
  rcases @rdropWhile_append (· == '\r') text '}' rfl second with ⟨third, inThird, same⟩
  rw [same]
  have blankThird : Text.Blank third := by
    intro character member
    exact blank character (((inThird.trans inSecond).trans inFirst).subset member)
  rw [Text.trimEnd_append_of_blank blankThird]
  exact List.rdropWhile_concat_neg _ _ _ (by decide)

/-! ## Trimming around an object -/

theorem trimStart_object (front rest : List Char) :
    Text.trimStart (front ++ '{' :: rest) = Text.trimStart front ++ '{' :: rest := by
  by_cases blank : Text.Blank front
  · rw [Text.trimStart_append_of_blank blank, Text.trimStart, Text.trimStart,
      List.dropWhile_eq_nil_iff.mpr blank]
    rfl
  · exact Text.trimStart_append_of_not_blank blank

variable {closing : List Char}

theorem trimEnd_object (text : List Char) (ending : Closing closing) :
    Text.trimEnd (text ++ ['}'] ++ closing) = text ++ ['}'] ∨
      ∃ before marks, Text.Blank before ∧ 3 ≤ marks.length ∧
        (∀ character ∈ marks, character = '`') ∧
        Text.trimEnd (text ++ ['}'] ++ closing) = text ++ ['}'] ++ (before ++ marks) := by
  rcases ending with blank | ⟨before, marks, after, blank, blankAfter, long, all, rfl⟩
  · left
    rw [Text.trimEnd_append_of_blank blank]
    exact List.rdropWhile_concat_neg _ _ _ (by decide)
  · right
    refine ⟨before, marks, blank, long, all, ?_⟩
    rw [← List.append_assoc, Text.trimEnd_append_of_blank blankAfter]
    rcases List.eq_nil_or_concat' marks with rfl | ⟨more, last, rfl⟩
    · exact absurd long (by decide)
    · have tick : last = '`' := all last (List.mem_append_right more (List.mem_singleton_self _))
      rw [← List.append_assoc before, ← List.append_assoc (text ++ ['}'])]
      exact List.rdropWhile_concat_neg _ _ _ (by rw [tick]; decide)

theorem Closing.blank_append (ending : Closing closing) (blank : Text.Blank blanks) :
    Closing (blanks ++ closing) := by
  rcases ending with blankClosing | ⟨before, marks, after, blankBefore, blankAfter, long, all, rfl⟩
  · left
    exact fun character member =>
      (List.mem_append.mp member).elim (blank character) (blankClosing character)
  · right
    refine ⟨blanks ++ before, marks, after, ?_, blankAfter, long, all, by simp⟩
    exact fun character member =>
      (List.mem_append.mp member).elim (blank character) (blankBefore character)

/-- Of an object in a transcript, the cleaning leaves the object with what stands before
it, if anything. -/
theorem cleaned_object (noBrace : '{' ∉ front) (ending : Closing closing) (body : List Char) :
    ∃ kept, '{' ∉ kept ∧
      Text.trim (stripCodeFences
        (Text.trim (front ++ '{' :: (body ++ ['}']) ++ closing))) =
          kept ++ '{' :: (body ++ ['}']) := by
  have noBraceStart : ∀ {text : List Char}, '{' ∉ text → '{' ∉ Text.trimStart text :=
    fun absent brace => absent ((List.dropWhile_suffix _).subset brace)
  have started : Text.trimStart (front ++ '{' :: (body ++ ['}']) ++ closing) =
      Text.trimStart front ++ '{' :: body ++ ['}'] ++ closing := by
    rw [List.append_assoc, List.cons_append, trimStart_object]
    simp
  have finished : ∀ kept : List Char, '{' ∉ kept →
      Text.trim (kept ++ '{' :: body ++ ['}']) = Text.trimStart kept ++ '{' :: (body ++ ['}']) := by
    intro kept absent
    rw [Text.trim, List.append_assoc, List.cons_append, trimStart_object,
      ← List.cons_append, ← List.append_assoc]
    exact List.rdropWhile_concat_neg _ _ _ (by decide)
  have trimmed : Text.trim (front ++ '{' :: (body ++ ['}']) ++ closing) =
      Text.trimEnd (Text.trimStart front ++ '{' :: body ++ ['}'] ++ closing) := by
    rw [Text.trim, started]
  rw [trimmed]
  rcases trimEnd_object (Text.trimStart front ++ '{' :: body) ending with
    same | ⟨before, marks, blank, long, all, same⟩
  · rw [same, stripCodeFences, List.append_assoc, List.cons_append]
    rcases stripOpeningFence_append (noBraceStart noBrace) (body ++ ['}']) with
      ⟨kept, absent, stripped⟩
    refine ⟨Text.trimStart kept, noBraceStart absent, ?_⟩
    rw [stripped, ← List.cons_append, ← List.append_assoc, stripClosingFence_object]
    exact finished kept absent
  · rw [same, stripCodeFences, List.append_assoc, List.append_assoc, List.cons_append]
    rcases stripOpeningFence_append (noBraceStart noBrace)
      (body ++ (['}'] ++ (before ++ marks))) with ⟨kept, absent, stripped⟩
    refine ⟨Text.trimStart kept, noBraceStart absent, ?_⟩
    rw [stripped, ← List.cons_append, ← List.append_assoc, ← List.append_assoc,
      stripClosingFence_fenced blank long all]
    exact finished kept absent

/-! ## Objects in transcripts -/

theorem tryJsonParseObject_of_object
    (object : serde.fromStr (String.ofList text) = some (.object members)) :
    tryJsonParseObject serde text = some (.object members) := by
  rw [tryJsonParseObject, object]

theorem firstBrace_append (noBrace : '{' ∉ front) (rest : List Char) :
    firstBrace (front ++ '{' :: rest) = some (front, '{' :: rest) := by
  have passed : ∀ character ∈ front, (character != '{') = true := by
    intro character member
    apply bne_iff_ne.mpr
    rintro rfl
    exact noBrace member
  rw [firstBrace, if_pos (List.mem_append_right front List.mem_cons_self),
    List.takeWhile_append_of_pos passed, List.dropWhile_append_of_pos passed]
  simp

theorem parseCleaned_of_object (reads : serde.ReadsObjects) {body : List Char}
    {members : Members} (noBrace : '{' ∉ front)
    (object : serde.fromStr (String.ofList ('{' :: body)) = some (.object members))
    (jsonrepair : String → Option String) :
    parseCleaned serde jsonrepair (front ++ '{' :: body) =
      { value := some (.object members) } := by
  rw [parseCleaned]
  cases whole : tryJsonParseObject serde (front ++ '{' :: body) with
  | some value =>
      -- If there is an object before the first brace is looked for, it starts there.
      rcases tryJsonParseObject_object whole with ⟨others, rfl⟩
      have read : serde.fromStr (String.ofList (front ++ '{' :: body)) = some (.object others) := by
        rw [tryJsonParseObject] at whole
        split at whole
        · next found =>
            cases whole
            exact found
        · cases whole
      have blank := (reads.accepts _ _ read).blank_front noBrace
      have same := reads.blank front ('{' :: body) [] blank (List.forall_mem_nil _)
      rw [List.append_nil, read, object] at same
      cases same
      rfl
  | none =>
      rw [firstBrace_append noBrace]
      have shown : front ≠ [] := by
        rintro rfl
        rw [List.nil_append, tryJsonParseObject_of_object object] at whole
        cases whole
      dsimp only
      rw [if_neg shown, tryJsonParseObject_of_object object]

/-- An object is found in a transcript with anything without braces before it, in a fence
or not, and nothing is repaired. Only an object is ever found. -/
theorem tryParseStructuredOutput_reads (serde : SerdeJson) :
    (serde.ReadsObjects → ∀ (text : String) (members : Members),
      serde.fromStr text = some (.object members) → ∀ front closing : String,
        '{' ∉ front.toList → Closing closing.toList → ∀ jsonrepair : String → Option String,
          tryParseStructuredOutput serde jsonrepair (front ++ text ++ closing) =
            { value := some (.object members) }) ∧
      ∀ (text : String) (jsonrepair : String → Option String) (value : Value),
        (tryParseStructuredOutput serde jsonrepair text).value = some value →
          ∃ members, value = .object members := by
  constructor
  · intro reads text members object front closing noBrace ending jsonrepair
    have asList : serde.fromStr (String.ofList text.toList) = some (.object members) := by
      rw [String.ofList_toList]
      exact object
    rcases reads.accepts text.toList members asList with
      ⟨before, inner, after, blank, derives, blankAfter, split⟩
    rcases derives.braces with ⟨body, rfl⟩
    have inside : serde.fromStr (String.ofList ('{' :: (body ++ ['}']))) =
        some (.object members) := by
      rw [← reads.blank before _ after blank blankAfter, ← split]
      exact asList
    have noBraceBefore : '{' ∉ front.toList ++ before := by
      intro brace
      rcases List.mem_append.mp brace with inFront | inBlank
      · exact noBrace inFront
      · exact absurd (blank '{' inBlank) (by decide)
    have whole : (front ++ text ++ closing).toList =
        (front.toList ++ before) ++ '{' :: (body ++ ['}']) ++ (after ++ closing.toList) := by
      rw [String.toList_append, String.toList_append, split]
      simp
    rcases cleaned_object noBraceBefore (ending.blank_append blankAfter.text) body with
      ⟨kept, absent, cleaned⟩
    rw [tryParseStructuredOutput, whole]
    have shown : Text.trim ((front.toList ++ before) ++ '{' :: (body ++ ['}']) ++
        (after ++ closing.toList)) ≠ [] := by
      intro nothing
      have empty : Text.trim (stripCodeFences []) = [] := rfl
      rw [nothing, empty] at cleaned
      exact absurd (congrArg List.length cleaned) (by simp)
    rw [if_neg shown, cleaned]
    exact parseCleaned_of_object reads absent inside jsonrepair
  · intro text jsonrepair value found
    exact tryParseStructuredOutput_object found

def approval : List Char :=
  "\x7b\"ok\":true\x7d".toList

theorem derives_approval : Derives .object approval := by
  have key : StringBody ['o', 'k'] :=
    .plain (by decide) (by decide) (by decide) (.plain (by decide) (by decide) (by decide) .empty)
  have nothing : Blank [] := List.forall_mem_nil _
  exact .object (.lastMember (.member nothing key nothing (.element nothing .true nothing)))

def approvalSerde : SerdeJson :=
  .knowing approval [("ok", .bool true)]

theorem tryParseStructuredOutput_approval :
    tryParseStructuredOutput approvalSerde some
        ("Here you are:\n```json\n" ++ String.ofList approval ++ "\n```\n") =
      { value := some (.object [("ok", .bool true)]) } := by
  apply (tryParseStructuredOutput_reads approvalSerde).1
  · exact SerdeJson.readsObjects_knowing derives_approval _
  · rfl
  · decide
  · right
    exact ⟨['\n'], fence, ['\n'], by unfold Text.Blank; exact Text.forall_of_all rfl,
      by unfold Text.Blank; exact Text.forall_of_all rfl, by decide,
      Text.forall_of_all rfl, rfl⟩

end StructuredTranscript

end HarnessAgent
