import HarnessAgent.Executor.Substitution
import HarnessAgent.Foundation.Identifier
import HarnessAgent.Foundation.LeftmostReading

/-! # References as a simultaneous substitution

The pattern for references describes a set of words. A reference is the longest word at
its place in a text, and the text reads in one way as references and the gaps between
them. The substitution puts into each place what a condition reads there.
-/

namespace HarnessAgent

open LeftmostReading

namespace OutputReference

def letters (reference : OutputReference) : List Char :=
  '$' :: (reference.nodeId.toList ++ ".output".toList ++
    match reference.field with
    | some field => '.' :: field.toList
    | none => [])

def WellFormed (reference : OutputReference) : Prop :=
  IsIdentifier Reference.isStart Reference.isNodeIdPart reference.nodeId.toList ∧
    ∀ field ∈ reference.field,
      IsIdentifier Reference.isStart Reference.isFieldPart field.toList

def Begins (text : List Char) (reference : OutputReference) (rest : List Char) : Prop :=
  reference.WellFormed ∧ text = reference.letters ++ rest ∧
    ∀ other remaining, WellFormed other → text = other.letters ++ remaining →
      other.letters.length ≤ reference.letters.length

variable {reference : OutputReference}

theorem wellFormed_of_parse (parsed : parse text = some (reference, rest)) :
    reference.WellFormed ∧ text = reference.letters ++ rest := by
  simp only [parse, Option.bind_eq_bind, Option.bind_eq_some_iff] at parsed
  rcases parsed with ⟨afterDollar, dollar, ⟨nodeId, afterId⟩, readId, afterOutput, output, chosen⟩
  have startsDollar := List.isPrefixOf?_eq_some_iff_append_eq.mp dollar
  have startsOutput := List.isPrefixOf?_eq_some_iff_append_eq.mp output
  rcases isIdentifier_of_read readId with ⟨splitId, named⟩
  subst splitId startsDollar
  dsimp only at startsOutput
  subst startsOutput
  split at chosen
  · next field fieldRest present =>
      cases chosen
      rcases Option.bind_eq_some_iff.mp present with ⟨afterDot, dot, readField⟩
      have startsDot := List.isPrefixOf?_eq_some_iff_append_eq.mp dot
      rcases isIdentifier_of_read readField with ⟨rfl, fieldNamed⟩
      constructor
      · constructor
        · simpa using named
        · intro own member
          cases member
          simpa using fieldNamed
      · rw [letters, ← startsDot]
        simp
  · cases chosen
    constructor
    · constructor
      · simpa using named
      · intro own member
        cases member
    · rw [letters]
      simp

theorem parse_letters (formed : reference.WellFormed) (rest : List Char) :
    ∃ found remaining, parse (reference.letters ++ rest) = some (found, remaining) ∧
      found.nodeId = reference.nodeId ∧
      ∀ field ∈ reference.field, ∃ more,
        found.field = some (String.ofList (field.toList ++ more)) := by
  have dotEnds : Reference.isNodeIdPart '.' = false := by decide
  rcases reference with ⟨nodeId, field⟩
  rcases formed with ⟨named, fieldNamed⟩
  dsimp only at named fieldNamed
  have readId : ∀ after, Reference.nodeId (nodeId.toList ++ (".output".toList ++ after)) =
      some (nodeId.toList, ".output".toList ++ after) := by
    intro after
    rw [Reference.nodeId, named.read_append]
    change some (nodeId.toList ++ List.takeWhile _ ('.' :: _), List.dropWhile _ ('.' :: _)) = _
    rw [List.takeWhile_cons_of_neg (by simp [dotEnds]),
      List.dropWhile_cons_of_neg (by simp [dotEnds]), List.append_nil]
    rfl
  have readOutput : ∀ after, Text.afterLiteral ".output".toList (".output".toList ++ after) =
      some after := fun after => List.isPrefixOf?_eq_some_iff_append_eq.mpr rfl
  cases field with
  | none =>
      have start : letters ⟨nodeId, none⟩ ++ rest =
          '$' :: (nodeId.toList ++ (".output".toList ++ rest)) := by
        simp [letters]
      rw [start, Substitution.parse_dollar, readId, Option.bind_some, readOutput,
        Option.bind_some]
      split
      · exact ⟨_, _, rfl, String.ofList_toList, by simp⟩
      · exact ⟨_, _, rfl, String.ofList_toList, by simp⟩
  | some field =>
      have start : letters ⟨nodeId, some field⟩ ++ rest =
          '$' :: (nodeId.toList ++ (".output".toList ++ ('.' :: (field.toList ++ rest)))) := by
        simp [letters]
      have dot : Text.afterLiteral ['.'] ('.' :: (field.toList ++ rest)) =
          some (field.toList ++ rest) := List.isPrefixOf?_eq_some_iff_append_eq.mpr rfl
      have readField := (fieldNamed field rfl).read_append rest
      rw [start, Substitution.parse_dollar, readId, Option.bind_some, readOutput,
        Option.bind_some, dot, Option.bind_some, Reference.field, readField]
      refine ⟨_, _, rfl, String.ofList_toList, ?_⟩
      intro own member
      cases member
      exact ⟨_, rfl⟩

theorem eq_or_shorter (sameNode : found.nodeId = reference.nodeId)
    (further : ∀ field ∈ reference.field, ∃ more,
      found.field = some (String.ofList (field.toList ++ more))) :
    found = reference ∨ reference.letters.length < found.letters.length := by
  rcases reference with ⟨nodeId, field⟩
  rcases found with ⟨foundId, foundField⟩
  dsimp only at sameNode further
  subst sameNode
  cases field with
  | none =>
      cases foundField with
      | none => exact .inl rfl
      | some own =>
          right
          simp [letters]
  | some field =>
      rcases further field rfl with ⟨more, rfl⟩
      cases more with
      | nil =>
          left
          rw [List.append_nil, String.ofList_toList]
      | cons first more =>
          right
          simp [letters]

theorem parse_eq_some_iff {text rest : List Char} :
    parse text = some (reference, rest) ↔ Begins text reference rest := by
  constructor
  · intro parsed
    rcases wellFormed_of_parse parsed with ⟨formed, split⟩
    refine ⟨formed, split, ?_⟩
    intro other remaining otherFormed otherSplit
    rcases parse_letters otherFormed remaining with ⟨found, tail, read, sameNode, further⟩
    rw [← otherSplit, parsed] at read
    cases read
    rcases eq_or_shorter sameNode further with rfl | shorter
    · exact Nat.le_refl _
    · exact Nat.le_of_lt shorter
  · rintro ⟨formed, split, longest⟩
    rcases parse_letters formed rest with ⟨found, tail, read, sameNode, further⟩
    rw [← split] at read
    rcases wellFormed_of_parse read with ⟨foundFormed, foundSplit⟩
    rcases eq_or_shorter sameNode further with rfl | shorter
    · rw [split] at foundSplit
      rw [read, List.append_cancel_left foundSplit]
    · have bound := longest found tail foundFormed foundSplit
      omega

theorem lawful_begins : Lawful Begins where
  unique := by
    intro text reference other rest remaining begins otherBegins
    have parsed := parse_eq_some_iff.mpr begins
    rw [parse_eq_some_iff.mpr otherBegins] at parsed
    cases parsed
    exact ⟨rfl, rfl⟩
  splits := by
    rintro text reference rest ⟨_, split, _⟩
    exact ⟨'$', _, split⟩

end OutputReference

namespace Substitution

open OutputReference ConditionEvaluator

/-- What takes the place of a reference: what a condition reads there, and the text of
the error where it cannot read anything. -/
def conditionText (serde : SerdeJson) (nodeOutputs : NodeOutputs) (reference : OutputReference) :
    String :=
  match resolveOutputRef serde nodeOutputs reference.nodeId reference.field with
  | .ok text => text
  | .error error => error.message

/-- The result has a value in place of each reference in the only reading of a text, and
the gaps between them as they are. -/
def Simultaneous (value : OutputReference → String) (text result : List Char) : Prop :=
  ∃ parts last, Reads Begins text parts last ∧
    (∀ others remaining, Reads Begins text others remaining →
      others = parts ∧ remaining = last) ∧
    result = replaced (fun reference => (value reference).toList) parts last

def segmentOf : Char ⊕ OutputReference → Segment :=
  Sum.elim .literal .reference

theorem segmentLoop_eq_scan (skip : Nat) (text : List Char) :
    segmentLoop skip text = (scan OutputReference.parse skip text).map segmentOf := by
  induction text generalizing skip with
  | nil => cases skip with
    | zero => rfl
    | succ skip => rfl
  | cons character rest induction =>
      cases skip with
      | succ skip => exact induction skip
      | zero =>
          rw [segmentLoop, scan]
          cases parsed : OutputReference.parse (character :: rest) with
          | none =>
              dsimp only
              rw [induction 0, List.map_cons]
              rfl
          | some found =>
              dsimp only
              rw [induction, List.map_cons]
              rfl

theorem replaceReference_text (serde : SerdeJson) (canWrite : String → Bool)
    (nodeOutputs : NodeOutputs) (outputFileDir : Option String) (reference : OutputReference) :
    (replaceReference serde canWrite nodeOutputs false outputFileDir reference).text =
      conditionText serde nodeOutputs reference := by
  rw [replaceReference, conditionText, resolveOutputRef]
  cases nodeOutputs.lookup reference.nodeId with
  | none => rfl
  | some nodeOutput =>
      dsimp only
      cases reference.field with
      | none => rfl
      | some field =>
          dsimp only
          cases resolveNodeOutputField serde nodeOutput reference.nodeId field with
          | error error => rfl
          | ok resolution =>
              cases resolution with
              | empty => rfl
              | value value => cases value with
                | null => rfl
                | bool value => rfl
                | number number => rfl
                | string text => rfl
                | array values => rfl
                | object members => rfl

theorem substituteNodeOutputRefs_simultaneous (serde : SerdeJson) (canWrite : String → Bool)
    (nodeOutputs : NodeOutputs) (outputFileDir : Option String) (prompt : String) :
    Simultaneous (conditionText serde nodeOutputs) prompt.toList
      (substituteNodeOutputRefs serde canWrite nodeOutputs false outputFileDir prompt).toList := by
  rcases exists_reads_scan lawful_begins (fun _ _ _ => parse_eq_some_iff) prompt.toList with
    ⟨parts, last, reads, scanned⟩
  refine ⟨parts, last, reads, fun others remaining => reads.unique lawful_begins, ?_⟩
  have piece : (fun item => (replaceSegment serde canWrite nodeOutputs false outputFileDir
      (segmentOf item)).text.toList) =
      Sum.elim (fun character => [character])
        fun reference => (conditionText serde nodeOutputs reference).toList := by
    funext item
    cases item with
    | inl character => exact String.toList_singleton character
    | inr reference =>
        exact congrArg String.toList
          (replaceReference_text serde canWrite nodeOutputs outputFileDir reference)
  rw [substituteNodeOutputRefs, String.toList_join, List.flatMap_map, segments,
    segmentLoop_eq_scan, List.flatMap_map, scanned, piece, flatMap_items]

end Substitution

end HarnessAgent
