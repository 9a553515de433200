import HarnessAgent.Executor.NodeFiles
import HarnessAgent.Executor.PromptSubstitution
import HarnessAgent.Executor.SimultaneousReferences

/-! # The ids that references can name

A node may have any id that is not blank. References, in texts and in conditions, name
the ids that start with a letter or an underscore and go on with letters, digits,
underscores and hyphens. These are read in full wherever they stand, and no other id is
read anywhere.
-/

namespace HarnessAgent

namespace NodeReferences

open ConditionEvaluator Substitution

def Referable (nodeId : String) : Prop :=
  IsIdentifier Reference.isStart Reference.isNodeIdPart nodeId.toList

def outputWord (nodeId : String) : List Char :=
  '$' :: (nodeId.toList ++ ".output".toList)

def EndsName (rest : List Char) : Prop :=
  ∀ character ∈ rest.head?, Reference.isNodeIdPart character = false

/-! ## Conditions -/

structure Test where
  segment2 : Option String
  operator : Operator
  expected : String
  deriving DecidableEq, Repr

def readTest (text : List Char) : Option Test := do
  let (segment2, rest) :=
    match (Text.afterLiteral ['.'] text).bind Reference.field with
    | some (segment, rest) => (some (String.ofList segment), rest)
    | none => (none, text)
  let (operator, rest) ← takeOperator (Text.trimStart rest)
  let literal := Text.trimStart rest
  let expected ← (quotedLiteral literal).or (unquotedLiteral literal)
  return { segment2, operator, expected := String.ofList expected }

def Test.atom (test : Test) (nodeId : String) : Atom where
  nodeId := nodeId
  segment1 := "output"
  segment2 := test.segment2
  operator := test.operator
  expected := test.expected

/-- The word for the output of a node is a reference to exactly this node: at every place
of a text, and at the start of an atom of a condition that goes on as a comparison. -/
structure Recognised (nodeId : String) : Prop where
  inText : ∀ before rest, EndsName rest → ∃ reference after,
    reference.nodeId = nodeId ∧ outputWord nodeId ++ rest = reference.letters ++ after ∧
      segmentLoop 0 (before ++ (outputWord nodeId ++ rest)) =
        segmentLoop 0 before ++ .reference reference :: segmentLoop 0 after
  inCondition : ∀ rest, EndsName rest →
    parseAtom (outputWord nodeId ++ rest) = (readTest rest).map fun test => test.atom nodeId

structure NeverRead (nodeId : String) : Prop where
  inText : ∀ text reference, Segment.reference reference ∈ segments text →
    reference.nodeId ≠ nodeId
  inCondition : ∀ text atom, parseAtom text = some atom → atom.nodeId ≠ nodeId

/-! ## Texts -/

theorem segmentLoop_append_dollar (tail : List Char) (within : skip ≤ before.length) :
    segmentLoop skip (before ++ '$' :: tail) =
      segmentLoop skip before ++ segmentLoop 0 ('$' :: tail) := by
  induction before generalizing skip with
  | nil =>
      rw [List.length_nil] at within
      rw [Nat.le_zero.mp within]
      rfl
  | cons character before induction =>
      cases skip with
      | succ skip => exact induction (Nat.le_of_succ_le_succ within)
      | zero =>
          rw [List.cons_append, segmentLoop, segmentLoop]
          by_cases dollar : character = '$'
          · subst dollar
            rw [parse_append (by simp)]
            cases parsed : OutputReference.parse ('$' :: before) with
            | none =>
                dsimp only [Option.map_none]
                rw [induction (Nat.zero_le _)]
                rfl
            | some found =>
                have shorter : found.2.length ≤ before.length := (parse_suffix parsed).length_le
                have same : (before ++ '$' :: tail).length - (found.2 ++ '$' :: tail).length =
                    before.length - found.2.length := by
                  rw [List.length_append, List.length_append]
                  omega
                dsimp only [Option.map_some]
                rw [same, induction (Nat.sub_le _ _)]
                rfl
          · have unread : ∀ text, OutputReference.parse (character :: text) = none := by
              intro text
              rw [OutputReference.parse, Text.afterLiteral, List.isPrefixOf?,
                if_neg (by simpa using fun same => dollar same.symm)]
              rfl
            rw [unread, unread]
            dsimp only
            rw [induction (Nat.zero_le _)]
            rfl

theorem segmentLoop_skip (inner rest : List Char) :
    segmentLoop inner.length (inner ++ rest) = segmentLoop 0 rest := by
  rw [segmentLoop_eq_scan, segmentLoop_eq_scan, LeftmostReading.scan_skip]

theorem outputWord_eq_letters (nodeId : String) :
    outputWord nodeId = OutputReference.letters ⟨nodeId, none⟩ := by
  rw [outputWord, OutputReference.letters, List.append_nil]

variable {nodeId : String}

theorem recognised_inText (referable : Referable nodeId) (before rest : List Char) :
    ∃ reference after, reference.nodeId = nodeId ∧
      outputWord nodeId ++ rest = reference.letters ++ after ∧
      segmentLoop 0 (before ++ (outputWord nodeId ++ rest)) =
        segmentLoop 0 before ++ .reference reference :: segmentLoop 0 after := by
  have formed : OutputReference.WellFormed ⟨nodeId, none⟩ := ⟨referable, nofun⟩
  rcases OutputReference.parse_letters formed rest with ⟨reference, after, parsed, named, -⟩
  rw [← outputWord_eq_letters] at parsed
  rcases OutputReference.wellFormed_of_parse parsed with ⟨-, split⟩
  refine ⟨reference, after, named, split, ?_⟩
  have start : outputWord nodeId ++ rest =
      '$' :: ((nodeId.toList ++ ".output".toList) ++ rest) := rfl
  rw [start] at parsed
  rw [start, segmentLoop_append_dollar _ (Nat.zero_le _), segmentLoop, parsed]
  -- The letters of the reference are skipped, its dollar sign is already read.
  rcases parse_suffix parsed with ⟨inner, body⟩
  dsimp only
  rw [← body, List.length_append, Nat.add_sub_cancel, segmentLoop_skip]

/-! ## Conditions that name a node -/

theorem parseAtom_dollar (text : List Char) :
    parseAtom ('$' :: text) =
      (Reference.nodeId text).bind fun named =>
        ((Text.afterLiteral ['.'] named.2).bind Reference.field).bind fun first =>
          (readTest first.2).map fun test =>
            { nodeId := String.ofList named.1, segment1 := String.ofList first.1,
              segment2 := test.segment2, operator := test.operator, expected := test.expected } := by
  have dollar : Text.afterLiteral ['$'] ('$' :: text) = some text :=
    List.isPrefixOf?_eq_some_iff_append_eq.mpr rfl
  rw [parseAtom, dollar, Option.bind_eq_bind, Option.bind_some]
  apply congrArg (Option.bind (Reference.nodeId text))
  funext named
  apply congrArg (Option.bind _)
  funext first
  dsimp only
  rw [readTest]
  have same : ∀ (segment2 : Option String) (rest : List Char),
      ((takeOperator (Text.trimStart rest)).bind fun operator =>
        ((quotedLiteral (Text.trimStart operator.2)).or
          (unquotedLiteral (Text.trimStart operator.2))).bind fun expected =>
            some ({ nodeId := String.ofList named.1, segment1 := String.ofList first.1, segment2,
                    operator := operator.1, expected := String.ofList expected } : Atom)) =
        ((takeOperator (Text.trimStart rest)).bind fun operator =>
          ((quotedLiteral (Text.trimStart operator.2)).or
            (unquotedLiteral (Text.trimStart operator.2))).bind fun expected =>
              some ({ segment2, operator := operator.1,
                      expected := String.ofList expected } : Test)).map fun test =>
            { nodeId := String.ofList named.1, segment1 := String.ofList first.1,
              segment2 := test.segment2, operator := test.operator, expected := test.expected } := by
    intro segment2 rest
    rw [Option.map_bind]
    apply congrArg (Option.bind _)
    funext operator
    rw [Function.comp_apply, Option.map_bind]
    rfl
  cases (Text.afterLiteral ['.'] first.2).bind Reference.field with
  | none => exact same none first.2
  | some second => exact same (some (String.ofList second.1)) second.2

theorem recognised_inCondition (referable : Referable nodeId) (ends : EndsName rest) :
    parseAtom (outputWord nodeId ++ rest) = (readTest rest).map fun test => test.atom nodeId := by
  have start : outputWord nodeId ++ rest =
      '$' :: (nodeId.toList ++ (".output".toList ++ rest)) := by
    rw [outputWord, List.cons_append, List.append_assoc]
  have readId : Reference.nodeId (nodeId.toList ++ (".output".toList ++ rest)) =
      some (nodeId.toList, ".output".toList ++ rest) := by
    rw [Reference.nodeId, referable.read_append]
    change some (nodeId.toList ++ List.takeWhile _ ('.' :: _), List.dropWhile _ ('.' :: _)) = _
    rw [List.takeWhile_cons_of_neg (by decide), List.dropWhile_cons_of_neg (by decide),
      List.append_nil]
    rfl
  have readSegment : (Text.afterLiteral ['.'] (".output".toList ++ rest)).bind Reference.field =
      some ("output".toList, rest) := by
    have output : Reference.IsField "output" := rfl
    apply Text.identifier_of_whole output
    intro character first
    exact (Bool.or_eq_false_iff.mp (ends character first)).1
  rw [start, parseAtom_dollar, readId, Option.bind_some, readSegment, Option.bind_some,
    String.ofList_toList]
  rfl

/-! ## Every id -/

theorem recognised_of_referable (referable : Referable nodeId) :
    Recognised nodeId where
  inText before rest _ := recognised_inText referable before rest
  inCondition _ ends := recognised_inCondition referable ends

theorem referable_of_parseAtom (parsed : parseAtom text = some atom) : Referable atom.nodeId := by
  rcases Option.bind_eq_some_iff.mp parsed with ⟨afterDollar, -, parsed⟩
  rcases Option.bind_eq_some_iff.mp parsed with ⟨⟨name, afterId⟩, readId, parsed⟩
  rcases Option.bind_eq_some_iff.mp parsed with ⟨⟨segment, afterSegment⟩, -, parsed⟩
  rcases Option.bind_eq_some_iff.mp parsed with ⟨⟨operator, afterOperator⟩, -, parsed⟩
  rcases Option.bind_eq_some_iff.mp parsed with ⟨expected, -, parsed⟩
  cases parsed
  rw [Referable, String.toList_ofList]
  exact (isIdentifier_of_read readId).2

theorem neverRead_of_not_referable (other : ¬Referable nodeId) :
    NeverRead nodeId where
  inText := by
    intro text reference member same
    rcases NodeFiles.exists_parse_of_mem member with ⟨front, rest, parsed⟩
    have formed := (OutputReference.wellFormed_of_parse parsed).1
    exact other (same ▸ formed.1)
  inCondition := by
    intro text atom parsed same
    exact other (same ▸ referable_of_parseAtom parsed)

/-- An id that the patterns allow is recognised wherever its output is named; any other id
is read nowhere. -/
theorem recognised_or_neverRead (nodeId : String) :
    (Referable nodeId → Recognised nodeId) ∧ (¬Referable nodeId → NeverRead nodeId) :=
  ⟨recognised_of_referable, neverRead_of_not_referable⟩

def numberedWorkflow : WorkflowDefinition where
  base := { name := "w", description := "d" }
  nodes := [{ node := .bash { base := { id := "1st" }, bash := "true" } }]

theorem not_recognised_accepted :
    ¬∀ definition : WorkflowDefinition, validateWorkflowDefinition definition = [] →
      ∀ node ∈ definition.dagNodes, Recognised node.id := by
  intro all
  have recognised : Recognised "1st" :=
    all numberedWorkflow (by decide) _ List.mem_cons_self
  rcases recognised.inText [] [] nofun with ⟨reference, after, -, -, read⟩
  have literal : segmentLoop 0 (outputWord "1st" ++ []) =
      (outputWord "1st").map Segment.literal := by decide +kernel
  rw [List.nil_append, literal] at read
  cases read

end NodeReferences

end HarnessAgent
