import HarnessAgent.Executor.NodeFiles
import HarnessAgent.Executor.ReferenceFailure
import HarnessAgent.Executor.ShellQuoting
import HarnessAgent.Executor.SimultaneousReferences
import HarnessAgent.Foundation.ShellScan

/-! # The structure of the scripts of bash nodes

A value is quoted in the same way at every place of a script. Outside of quotes it becomes
a part of a word, whatever it is. Inside of them its quotes close what is open, or are
literal, and the shell reads the value itself.
-/

namespace HarnessAgent

open ShellScan

/-- What a reference brings into a script: a text that is quoted, or something that stands
there as it is. -/
inductive Inserted
  | text (value : String)
  | bare (text : String)
  deriving DecidableEq, Repr

namespace Substitution

def inserted (serde : SerdeJson) (nodeOutputs : NodeOutputs) (reference : OutputReference) :
    Inserted :=
  match nodeOutputs.lookup reference.nodeId with
  | none => .bare "''"
  | some nodeOutput =>
      match reference.field with
      | none => .text nodeOutput.output
      | some field =>
          match resolveNodeOutputField serde nodeOutput reference.nodeId field with
          | .error error => .bare error.message
          | .ok .empty => .bare "''"
          | .ok (.value (.string text)) => .text text
          | .ok (.value (.number number)) => .bare (serde.toString (.number number))
          | .ok (.value (.bool value)) => .bare (if value then "true" else "false")
          | .ok (.value value) => .text (serde.toString value)

def replacementOf (canWrite : String → Bool) (outputFileDir : Option String)
    (reference : OutputReference) : Inserted → Replacement
  | .text value =>
      shellQuoteOrFile canWrite value reference.nodeId reference.field outputFileDir
  | .bare text => { text }

theorem replaceReference_inserted (serde : SerdeJson) (canWrite : String → Bool)
    (nodeOutputs : NodeOutputs) (outputFileDir : Option String) (reference : OutputReference) :
    replaceReference serde canWrite nodeOutputs true outputFileDir reference =
      replacementOf canWrite outputFileDir reference (inserted serde nodeOutputs reference) := by
  rw [replaceReference, inserted]
  cases nodeOutputs.lookup reference.nodeId with
  | none => rfl
  | some nodeOutput =>
      dsimp only
      cases field : reference.field with
      | none =>
          dsimp only
          rw [replacementOf, field]
          rfl
      | some name =>
          dsimp only
          cases resolveNodeOutputField serde nodeOutput reference.nodeId name with
          | error error => rfl
          | ok resolution =>
              cases resolution with
              | empty => rfl
              | value value =>
                  rw [← field]
                  cases value with
                  | null => rfl
                  | bool value => rfl
                  | number number => rfl
                  | string text => rfl
                  | array values => rfl
                  | object members => rfl

/-- The JSON library writes a number as digits, with a sign, a point and an exponent. -/
def WritesNumbers (serde : SerdeJson) : Prop :=
  ∀ number, ∃ front last,
    (serde.toString (.number number)).toList = front ++ [last] ∧
      Text.isAsciiDigit last = true ∧
        ∀ character ∈ front,
          Text.isAsciiDigit character = true ∨ character ∈ ['+', '-', '.', 'e', 'E']

variable {serde : SerdeJson}

theorem settles_number (writes : WritesNumbers serde) (number : Number) :
    State.Settles (serde.toString (.number number)).toList := by
  rcases writes number with ⟨front, last, spelled, digit, parts⟩
  rw [spelled]
  have ends : Before.of last = .name := by
    rw [Before.of, if_pos (.inr (.inl digit))]
  apply State.settles_of_ordinary _ ends
  · intro keyword member found
    have known : (keywords.all fun own => own.all fun character =>
      Text.isAsciiDigit character = false) = true := rfl
    have inside : last ∈ keyword :=
      found.subset (List.mem_append_right _ (List.mem_singleton_self _))
    have differs := List.all_eq_true.mp (List.all_eq_true.mp known keyword member) last inside
    rw [of_decide_eq_true differs] at digit
    cases digit
  · intro character member
    rcases List.mem_append.mp member with part | same
    · rcases parts character part with number | mark
      · simp [State.isOrdinary, number]
      · have all : ∀ own ∈ ['+', '-', '.', 'e', 'E'], State.isOrdinary own = true :=
          Text.forall_of_all rfl
        exact all character mark
    · rw [List.mem_singleton.mp same]
      simp [State.isOrdinary, digit]

theorem settles_bool (value : Bool) :
    State.Settles (if value then "true" else "false").toList := by
  cases value with
  | false =>
      exact @State.settles_of_ordinary "fals".toList 'e' (Text.forall_of_all rfl) rfl (by decide)
  | true =>
      exact @State.settles_of_ordinary "tru".toList 'e' (Text.forall_of_all rfl) rfl (by decide)

theorem follow_trans {first middle last : State.Track} {left right : List Char}
    (before : first.follow left = some middle) (after : middle.follow right = some last) :
    first.follow (left ++ right) = some last := by
  rw [State.Track.follow_append, before, Option.bind_some, after]

theorem settles_message {error : OutputRefError} (nodeId : '\'' ∉ error.nodeId.toList)
    (field : '\'' ∉ error.field.toList) : State.Settles error.message.toList := by
  have node : State.Track.follow {} error.nodeId.toList = some {} :=
    State.Track.follow_quoted rfl nodeId
  have own : State.Track.follow {} error.field.toList = some {} :=
    State.Track.follow_quoted rfl field
  have opens : ∀ rest : List Char, "'".toList ++ rest = '\'' :: rest := fun _ => rfl
  rcases error with ⟨nodeId, field, reason⟩
  cases reason
  all_goals
    simp only [OutputRefError.message, String.toList_append, List.append_assoc]
    rw [opens]
    apply State.settles_of_follow
    -- The literals are made lists of characters, which are cheap to follow.
    repeat rw [String.toList_ofList]
    repeat' apply follow_trans
    all_goals first | rfl | exact node | exact own

theorem quote_not_mem_identifier (named : IsIdentifier Reference.isStart isPart name)
    (other : isPart '\'' = false) : '\'' ∉ name := by
  rcases named with ⟨first, parts, rfl, starts, all⟩
  intro member
  rcases List.mem_cons.mp member with same | later
  · rw [← same] at starts
    exact absurd starts (by decide)
  · rw [all _ later] at other
    cases other

variable {reference : OutputReference}

/-- What stands in a script without quotes closes what it opens. -/
theorem settles_bare (writes : WritesNumbers serde) {nodeOutputs : NodeOutputs}
    (formed : reference.WellFormed) {text : String}
    (bare : inserted serde nodeOutputs reference = .bare text) : State.Settles text.toList := by
  have empty : State.Settles "''".toList := State.settles_of_follow rfl
  rw [inserted] at bare
  cases found : nodeOutputs.lookup reference.nodeId with
  | none =>
      rw [found] at bare
      cases bare
      exact empty
  | some nodeOutput =>
      simp only [found] at bare
      cases field : reference.field with
      | none =>
          simp only [field] at bare
          cases bare
      | some name =>
          simp only [field] at bare
          cases resolved : resolveNodeOutputField serde nodeOutput reference.nodeId name with
          | error error =>
              simp only [resolved] at bare
              cases bare
              rcases error_names resolved with ⟨sameNode, sameField⟩
              apply settles_message
              · rw [sameNode]
                exact quote_not_mem_identifier formed.1 (by decide)
              · rw [sameField]
                exact quote_not_mem_identifier (formed.2 name field) (by decide)
          | ok resolution =>
              simp only [resolved] at bare
              cases resolution with
              | empty =>
                  cases bare
                  exact empty
              | value value => cases value with
                | null => cases bare
                | bool value =>
                    cases bare
                    exact settles_bool value
                | number number =>
                    cases bare
                    exact settles_number writes number
                | string text => cases bare
                | array values => cases bare
                | object members => cases bare

section Scripts

variable (environment : NodeEnvironment)

/-- Two values are put into a script in the same way: both inline, or both in a file. -/
def SameWay (reference : OutputReference) (left right : String) : Prop :=
  StandsInline environment.canWrite left reference.nodeId reference.field
      (some environment.logDir) ↔
    StandsInline environment.canWrite right reference.nodeId reference.field
      (some environment.logDir)

/-- What a reference brings into two scripts differs at most in the text of a value. -/
inductive Varies (reference : OutputReference) : Inserted → Inserted → Prop
  | text {left right : String} (same : SameWay environment reference left right) :
      Varies reference (.text left) (.text right)
  | same (own : Inserted) : Varies reference own own

/-- Two maps of outputs differ only in the text of the values. -/
def DifferInTexts (first second : NodeOutputs) : Prop :=
  ∀ reference, Varies environment reference (inserted environment.serde first reference)
    (inserted environment.serde second reference)

def scriptOf (nodeOutputs : NodeOutputs) (parts : List Segment) : List Char :=
  parts.flatMap fun part => (replaceSegment environment.serde environment.canWrite nodeOutputs true
    (some environment.logDir) part).text.toList

variable (nodeOutputs : NodeOutputs)

theorem toList_substituteForBash (text : String) :
    (environment.substituteForBash nodeOutputs text).toList =
      scriptOf environment nodeOutputs (segments text) := by
  rw [NodeEnvironment.substituteForBash, substituteNodeOutputRefs, String.toList_join,
    List.flatMap_map]
  rfl

/-- Every reference stands outside of quotes, after references that are read as words. -/
def Outside : State → List Segment → Prop
  | _, [] => True
  | state, .literal character :: rest => Outside (state.step character).1 rest
  | state, .reference _ :: rest => state.isPlain = true ∧ Outside state.inWord rest

def WellFormed (parts : List Segment) : Prop :=
  ∀ reference, Segment.reference reference ∈ parts → reference.WellFormed

theorem wellFormed_segments (text : String) : WellFormed (segments text) := by
  intro reference member
  rcases NodeFiles.exists_parse_of_mem member with ⟨front, rest, parsed⟩
  exact (OutputReference.wellFormed_of_parse parsed).1

variable {environment}

theorem scriptOf_cons (part : Segment) (rest : List Segment) :
    scriptOf environment nodeOutputs (part :: rest) =
      scriptOf environment nodeOutputs [part] ++ scriptOf environment nodeOutputs rest := by
  rw [scriptOf, scriptOf, scriptOf, List.flatMap_cons, List.flatMap_singleton]

theorem scriptOf_literal (character : Char) :
    scriptOf environment nodeOutputs [.literal character] = [character] := by
  rw [scriptOf, List.flatMap_singleton]
  exact String.toList_singleton character

theorem scriptOf_reference (reference : OutputReference) :
    scriptOf environment nodeOutputs [.reference reference] =
      (replacementOf environment.canWrite (some environment.logDir) reference
        (inserted environment.serde nodeOutputs reference)).text.toList := by
  rw [scriptOf, List.flatMap_singleton, replaceSegment, replaceReference_inserted]

variable {state : State}

theorem scan_value (plain : state.isPlain = true) (same : SameWay environment reference left right) :
    state.scan (replacementOf environment.canWrite (some environment.logDir) reference
        (.text left)).text.toList =
      state.scan (replacementOf environment.canWrite (some environment.logDir) reference
        (.text right)).text.toList ∧
    (state.scan (replacementOf environment.canWrite (some environment.logDir) reference
        (.text left)).text.toList).1 = state.inWord := by
  rw [replacementOf, replacementOf]
  by_cases inline : StandsInline environment.canWrite left reference.nodeId reference.field
      (some environment.logDir)
  · rw [shellQuoteOrFile_inline inline, shellQuoteOrFile_inline (same.mp inline), shellQuote_eq,
      shellQuote_eq, String.toList_ofList, String.toList_ofList, State.scan_enclosed plain,
      State.scan_enclosed plain]
    exact ⟨rfl, rfl⟩
  · rcases shellQuoteOrFile_offloaded inline with ⟨-, path, leftRead⟩
    rcases shellQuoteOrFile_offloaded (fun wrong => inline (same.mpr wrong)) with
      ⟨-, other, rightRead⟩
    rw [leftRead, rightRead, String.toList_ofList, String.toList_ofList,
      State.scan_reading plain, State.scan_reading plain]
    exact ⟨rfl, rfl⟩

theorem scan_replacement (writes : WritesNumbers environment.serde) (plain : state.isPlain = true)
    (formed : reference.WellFormed)
    (varies : Varies environment reference (inserted environment.serde first reference)
      (inserted environment.serde second reference)) :
    state.scan (scriptOf environment first [.reference reference]) =
        state.scan (scriptOf environment second [.reference reference]) ∧
      (state.scan (scriptOf environment first [.reference reference])).1 = state.inWord := by
  rw [scriptOf_reference, scriptOf_reference]
  generalize right : inserted environment.serde second reference = brought at varies
  cases left : inserted environment.serde first reference with
  | text value =>
      rw [left] at varies
      cases varies with
      | text same => exact scan_value plain same
      | same => exact scan_value plain .rfl
  | bare text =>
      rw [left] at varies
      cases varies with
      | same => exact ⟨rfl, settles_bare writes formed left state plain⟩

/-- Where every reference stands outside of quotes, the values do not show in the structure. -/
theorem scan_script (writes : WritesNumbers environment.serde) (formed : WellFormed parts)
    (differ : DifferInTexts environment first second) (outside : Outside state parts) :
    state.scan (scriptOf environment first parts) =
      state.scan (scriptOf environment second parts) := by
  induction parts generalizing state with
  | nil => rfl
  | cons part rest induction =>
      have later : WellFormed rest := fun own member => formed own (List.mem_cons_of_mem _ member)
      rw [scriptOf_cons first, scriptOf_cons second, State.scan_append, State.scan_append]
      cases part with
      | literal character =>
          have next : (state.scan [character]).1 = (state.step character).1 := rfl
          rw [scriptOf_literal, scriptOf_literal, next, induction later outside]
      | reference reference =>
          rcases scan_replacement writes outside.1 (formed reference List.mem_cons_self)
            (differ reference) with ⟨same, next⟩
          rw [← same, next, induction later outside.2]

def probe (reference : OutputReference) (value : String) : NodeOutputs :=
  (∅ : NodeOutputs).insert reference.nodeId
    (match reference.field with
    | none => .completed value none (some (.object [])) none
    | some field => .completed "" none (some (.object [(field, .string value)])) none)

theorem inserted_probe (serde : SerdeJson) (reference : OutputReference) (value : String) :
    inserted serde (probe reference value) reference = .text value := by
  rw [inserted, probe, AList.lookup_insert]
  cases field : reference.field with
  | none => rfl
  | some name => simp [resolveNodeOutputField, resolveSettledField, NodeOutput.state,
      NodeOutput.declaredFields, NodeOutput.structuredOutput, Value.asObject, Members.get_cons]

theorem inserted_probe_cases (serde : SerdeJson) (reference other : OutputReference) :
    (∀ value, inserted serde (probe reference value) other = .text value) ∨
      ∃ own, ∀ value, inserted serde (probe reference value) other = own := by
  by_cases same : other = reference
  · rw [same]
    exact .inl (inserted_probe serde reference)
  right
  by_cases sameNode : other.nodeId = reference.nodeId
  · have found : ∀ value, (probe reference value).lookup other.nodeId =
        some (match reference.field with
          | none => .completed value none (some (.object [])) none
          | some field =>
              .completed "" none (some (.object [(field, .string value)])) none) := by
      intro value
      rw [sameNode, probe, AList.lookup_insert]
    rcases reference with ⟨nodeId, field⟩
    rcases other with ⟨otherId, otherField⟩
    cases sameNode
    cases field with
    | none =>
        cases otherField with
        | none => exact absurd rfl same
        | some name =>
            refine ⟨.bare "''", fun value => ?_⟩
            rw [inserted, found]
            rfl
    | some field =>
        cases otherField with
        | none =>
            refine ⟨.text "", fun value => ?_⟩
            rw [inserted, found]
            rfl
        | some name =>
            have different : name ≠ field := fun equal => same (by rw [equal])
            refine ⟨.bare "''", fun value => ?_⟩
            rw [inserted, found]
            simp [resolveNodeOutputField, resolveSettledField, NodeOutput.state,
              NodeOutput.declaredFields, NodeOutput.structuredOutput, Value.asObject,
              Members.get_cons, different]
  · refine ⟨.bare "''", fun value => ?_⟩
    have missing : (probe reference value).lookup other.nodeId = none := by
      rw [probe, AList.lookup_insert_ne sameNode]
      rfl
    rw [inserted, missing]

theorem differInTexts_probe {reference : OutputReference} {left right : String}
    (same : ∀ own, SameWay environment own left right) :
    DifferInTexts environment (probe reference left) (probe reference right) := by
  intro other
  rcases inserted_probe_cases environment.serde reference other with text | ⟨own, fixed⟩
  · rw [text, text]
    exact .text (same other)
  · rw [fixed, fixed]
    exact .same own

theorem sameWay_of_short (leftShort : left.utf8ByteSize ≤ 32768)
    (rightShort : right.utf8ByteSize ≤ 32768) (reference : OutputReference) :
    SameWay environment reference left right :=
  iff_of_true (fun _ _ long => absurd long (Nat.not_lt.mpr leftShort))
    (fun _ _ long => absurd long (Nat.not_lt.mpr rightShort))

theorem scriptOf_probe (reference : OutputReference) (short : value.utf8ByteSize ≤ 32768) :
    scriptOf environment (probe reference value) [.reference reference] =
      ShellWord.enclosed value.toList := by
  have inline : StandsInline environment.canWrite value reference.nodeId reference.field
      (some environment.logDir) := fun _ _ long => absurd long (Nat.not_lt.mpr short)
  rw [scriptOf_reference, inserted_probe, replacementOf, shellQuoteOrFile_inline inline,
    shellQuote_eq, String.toList_ofList]

theorem scan_probe_ne (other : state.isPlain = false) (reference : OutputReference)
    (rest : List Segment) :
    (state.scan (scriptOf environment (probe reference "\n$a") (.reference reference :: rest))).2 ≠
      (state.scan
        (scriptOf environment (probe reference "\n$b") (.reference reference :: rest))).2 := by
  have quoted : ∀ letter : Char, letter ≠ '\'' → ShellWord.enclosed ['\n', '$', letter] =
      ['\'', '\n', '$'] ++ [letter, '\''] := by
    intro letter notQuote
    simp [ShellWord.enclosed, notQuote]
  rcases State.shows_scan other with ⟨shown, first, second⟩
  have left : scriptOf environment (probe reference "\n$a") [.reference reference] =
      ['\'', '\n', '$'] ++ ['a', '\''] :=
    (scriptOf_probe reference (by decide)).trans (quoted 'a' (by decide))
  have right : scriptOf environment (probe reference "\n$b") [.reference reference] =
      ['\'', '\n', '$'] ++ ['b', '\''] :=
    (scriptOf_probe reference (by decide)).trans (quoted 'b' (by decide))
  intro same
  rw [scriptOf_cons (probe reference "\n$a"), scriptOf_cons (probe reference "\n$b"), left,
    right, List.append_assoc, List.append_assoc, State.scan_append,
    @State.scan_append state] at same
  have later := List.append_cancel_left same
  have letter : ∀ (place : State) (character : Char) (text : List Char),
      (place.scan (character :: text)).2 =
        (place.step character).2 ++ ((place.step character).1.scan text).2 := fun _ _ _ => rfl
  have joined : ∀ (character : Char) (text : List Char),
      [character, '\''] ++ text = character :: '\'' :: text := fun _ _ => rfl
  rw [joined, joined, letter _ 'a', letter _ 'b', first, second, List.append_assoc,
    List.append_assoc] at later
  have letters := List.append_cancel_left later
  exact absurd (List.cons.inj letters).1 (by decide)

/-- If a reference stands at another place, some reference has two values that differ in
the structure of the script. -/
theorem exists_scan_probe_ne (writes : WritesNumbers environment.serde) (formed : WellFormed parts)
    (inside : ¬Outside state parts) :
    ∃ reference, (state.scan (scriptOf environment (probe reference "\n$a") parts)).2 ≠
      (state.scan (scriptOf environment (probe reference "\n$b") parts)).2 := by
  induction parts generalizing state with
  | nil => exact absurd trivial inside
  | cons part rest induction =>
      have later : WellFormed rest := fun own member => formed own (List.mem_cons_of_mem _ member)
      have continues : ∀ reference next shown,
          (∀ value, value = "\n$a" ∨ value = "\n$b" →
            state.scan (scriptOf environment (probe reference value) [part]) = (next, shown)) →
          (next.scan (scriptOf environment (probe reference "\n$a") rest)).2 ≠
            (next.scan (scriptOf environment (probe reference "\n$b") rest)).2 →
          (state.scan (scriptOf environment (probe reference "\n$a") (part :: rest))).2 ≠
            (state.scan (scriptOf environment (probe reference "\n$b") (part :: rest))).2 := by
        intro reference next shown start different same
        rw [scriptOf_cons (probe reference "\n$a"), scriptOf_cons (probe reference "\n$b"),
          State.scan_append, @State.scan_append state, start _ (.inl rfl),
          start _ (.inr rfl)] at same
        exact different (List.append_cancel_left same)
      cases part with
      | literal character =>
          rcases induction later inside with ⟨reference, different⟩
          refine ⟨reference, continues reference (state.step character).1
            ((state.step character).2 ++ []) ?_ different⟩
          intro value _
          rw [scriptOf_literal]
          rfl
      | reference own =>
          by_cases plain : state.isPlain = true
          · rcases induction later (fun outside => inside ⟨plain, outside⟩) with
              ⟨reference, different⟩
            have same := scan_replacement writes plain (formed own List.mem_cons_self)
              (@differInTexts_probe environment reference "\n$a" "\n$b"
                (sameWay_of_short (by decide) (by decide)) own)
            refine ⟨reference, continues reference state.inWord
              (state.scan (scriptOf environment (probe reference "\n$a") [.reference own])).2
              ?_ different⟩
            rintro value (rfl | rfl)
            · exact Prod.ext same.2 rfl
            · rw [← same.1]
              exact Prod.ext same.2 rfl
          · exact ⟨own, scan_probe_ne (by simpa using plain) own rest⟩

end Scripts

end Substitution

namespace NodeEnvironment

open Substitution

variable (environment : NodeEnvironment)

def HandsOver (node : BashNode) (nodeOutputs : NodeOutputs) (script : String) : Prop :=
  Use.subprocess "bash" ["-c", script] ∈ (environment.executeBashNode node nodeOutputs).uses

theorem handsOver_iff (node : BashNode) (nodeOutputs : NodeOutputs) (script : String) :
    environment.HandsOver node nodeOutputs script ↔
      ∃ substituted,
        substituteWorkflowVariables environment.workflowVariables true node.bash =
          .ok substituted ∧
        script = environment.substituteForBash nodeOutputs substituted.prompt := by
  rw [HandsOver, executeBashNode]
  cases substituteWorkflowVariables environment.workflowVariables true node.bash with
  | error error =>
      apply iff_of_false
      · intro member
        cases member
      · rintro ⟨substituted, wrong, -⟩
        cases wrong
  | ok substituted =>
      dsimp only
      rw [bashUses, List.mem_append, List.mem_singleton]
      constructor
      · rintro (file | call)
        · rcases List.mem_map.mp file with ⟨_, -, wrong⟩
          cases wrong
        · cases call
          exact ⟨substituted, rfl, rfl⟩
      · rintro ⟨_, same, rfl⟩
        cases same
        exact .inr rfl

def OneStructure (node : BashNode) : Prop :=
  ∀ first second, DifferInTexts environment first second →
    ∀ script other, environment.HandsOver node first script →
      environment.HandsOver node second other →
        structureOf script.toList = structureOf other.toList

def StandsOutside (node : BashNode) : Prop :=
  ∀ substituted,
    substituteWorkflowVariables environment.workflowVariables true node.bash = .ok substituted →
      Substitution.Outside {} (segments substituted.prompt)

def readingNode (bash : String) : BashNode where
  base := { id := "b", dependsOn := ["a"] }
  bash

def zeroSerde : SerdeJson where
  toString _ := "0"
  fromStr _ := none

theorem writesNumbers_zeroSerde : WritesNumbers zeroSerde := by
  intro number
  have spelled : "0".toList = ['0'] := by decide
  refine ⟨[], '0', spelled, rfl, ?_⟩
  intro character member
  cases member

end NodeEnvironment

end HarnessAgent
