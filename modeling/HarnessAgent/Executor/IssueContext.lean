import HarnessAgent.Executor.PromptSubstitution

/-! # The issue context in prompts

The context of an issue takes the place of the context variables of a prompt, or follows
the prompt if it has none. What counts is the text with the other variables filled in,
which may have lost a context variable of the template, or got one from a value.
-/

namespace HarnessAgent

namespace Substitution

open Text Text.Finder

def StartsContext (text rest : List Char) : Prop :=
  ∃ name ∈ contextVariables, text = name.toList ++ rest ∧
    rest.head?.any Reference.isFieldPart = false

def NamesContext (text : List Char) : Prop :=
  ∃ start rest, start <:+ text ∧ StartsContext start rest

inductive ContextInserted (context : List Char) : List Char → List Char → Prop
  | ends : ContextInserted context [] []
  | variable {start rest filled : List Char} (starts : StartsContext start rest)
      (inserted : ContextInserted context rest filled) :
      ContextInserted context start (context ++ filled)
  | other {character : Char} {rest filled : List Char}
      (starts : ∀ after, ¬StartsContext (character :: rest) after)
      (inserted : ContextInserted context rest filled) :
      ContextInserted context (character :: rest) (character :: filled)

variable {rest text : List Char}

theorem startsContext_of_after (after : afterContextVariable text = some rest) :
    StartsContext text rest := by
  rcases List.exists_of_findSome?_eq_some after with ⟨name, member, found⟩
  rcases Option.bind_eq_some_iff.mp found with ⟨remaining, literal, ends⟩
  split at ends
  · cases ends
  · next boundary =>
      cases ends
      exact ⟨name, member, (List.isPrefixOf?_eq_some_iff_append_eq.mp literal).symm,
        Bool.eq_false_of_not_eq_true boundary⟩

theorem not_startsContext_of_after (nothing : afterContextVariable text = none) (rest : List Char) :
    ¬StartsContext text rest := by
  intro starts
  rcases starts with ⟨name, member, split, boundary⟩
  have absent := List.findSome?_eq_none_iff.mp nothing name member
  have literal : afterLiteral name.toList text = some rest :=
    List.isPrefixOf?_eq_some_iff_append_eq.mpr split.symm
  rw [literal, Option.bind_some, boundary, if_neg Bool.false_ne_true] at absent
  cases absent

theorem namesContext_of_starts (starts : StartsContext text rest) : NamesContext text :=
  ⟨text, rest, List.suffix_rfl, starts⟩

theorem namesContext_cons (starts : ∀ after, ¬StartsContext (character :: rest) after) :
    NamesContext (character :: rest) ↔ NamesContext rest := by
  constructor
  · intro names
    rcases names with ⟨start, after, suffix, found⟩
    rcases List.suffix_cons_iff.mp suffix with rfl | later
    · exact absurd found (starts after)
    · exact ⟨start, after, later, found⟩
  · intro names
    rcases names with ⟨start, after, suffix, found⟩
    exact ⟨start, after, suffix.trans (List.suffix_cons _ _), found⟩

theorem StartsContext.length_lt (starts : StartsContext text rest) : rest.length < text.length := by
  rcases starts with ⟨name, member, rfl, -⟩
  have shown : ∀ name ∈ contextVariables, 0 < name.toList.length := by decide
  have positive := shown name member
  rw [List.length_append]
  omega

theorem contextLoop_of_after {context : List Char}
    (after : afterContextVariable (character :: rest) = some remaining) :
    contextLoop context 0 (character :: rest) =
      (context ++ (contextLoop context 0 remaining).1, true) := by
  have starts := startsContext_of_after after
  have shorter := starts.length_lt
  rcases starts with ⟨name, member, split, -⟩
  have suffix : remaining <:+ rest := by
    rcases List.suffix_cons_iff.mp ⟨name.toList, split.symm⟩ with same | later
    · rw [same] at shorter
      exact absurd shorter (Nat.lt_irrefl _)
    · exact later
  rcases suffix with ⟨letters, rfl⟩
  have length : (letters ++ remaining).length - remaining.length = letters.length := by
    rw [List.length_append]
    omega
  rw [contextLoop, after]
  dsimp only
  rw [length, ← pass_contextFinder, ← pass_contextFinder, pass_skip]

theorem inserted_contextLoop (context text : List Char) :
    ContextInserted context text (contextLoop context 0 text).1 ∧
      ((contextLoop context 0 text).2 = true ↔ NamesContext text) := by
  induction size : text.length using Nat.strong_induction_on generalizing text with
  | h size induction =>
      cases text with
      | nil =>
          refine ⟨.ends, iff_of_false Bool.false_ne_true ?_⟩
          intro names
          rcases names with ⟨start, rest, suffix, starts⟩
          have shorter := starts.length_lt
          rw [List.suffix_nil.mp suffix] at shorter
          exact absurd shorter (Nat.not_lt_zero _)
      | cons character rest =>
          cases after : afterContextVariable (character :: rest) with
          | some remaining =>
              have starts := startsContext_of_after after
              have shorter := starts.length_lt
              have later := induction remaining.length (by omega) remaining rfl
              rw [contextLoop_of_after after]
              exact ⟨.variable starts later.1, iff_of_true rfl (namesContext_of_starts starts)⟩
          | none =>
              have other := not_startsContext_of_after after
              rw [List.length_cons] at size
              have later := induction rest.length (by omega) rest rfl
              rw [contextLoop, after, namesContext_cons other]
              exact ⟨.other other later.1, later.2⟩

theorem ContextInserted.infix {context : List Char} (inserted : ContextInserted context text filled)
    (names : NamesContext text) : context <:+: filled := by
  induction inserted with
  | ends =>
      rcases names with ⟨start, rest, suffix, starts⟩
      have shorter := starts.length_lt
      rw [List.suffix_nil.mp suffix] at shorter
      exact absurd shorter (Nat.not_lt_zero _)
  | «variable» starts inserted induction => exact (List.prefix_append _ _).isInfix
  | other starts inserted induction =>
      exact (induction ((namesContext_cons starts).mp names)).trans (List.suffix_cons _ _).isInfix

theorem ContextInserted.eq_of_not {context : List Char}
    (inserted : ContextInserted context text filled) (nameless : ¬NamesContext text) :
    filled = text := by
  induction inserted with
  | ends => rfl
  | «variable» starts inserted induction => exact absurd (namesContext_of_starts starts) nameless
  | other starts inserted induction =>
      rw [namesContext_cons starts] at nameless
      rw [induction nameless]

theorem toList_substituteContextVars (input replacement : String) :
    (substituteContextVars input replacement).1.toList =
      (contextLoop replacement.toList 0 input.toList).1 :=
  String.toList_ofList

theorem substituteContextVars_snd (input replacement : String) :
    (substituteContextVars input replacement).2 =
      (contextLoop replacement.toList 0 input.toList).2 :=
  rfl

theorem namesContext_iff (text : String) :
    (substituteContextVars text "").2 = true ↔ NamesContext text.toList :=
  (inserted_contextLoop [] text.toList).2

def filledTemplate (values : WorkflowVariables) (template : String) : List Char :=
  (withVariables (nodeValues values) template).toList

/-- The variables of the template itself, those for the context included, all replaced at
once. -/
def replacedTemplate (values : WorkflowVariables) (template : String) : List Char :=
  (first (valueFinders (nodeValues values))).replace template.toList

/-- No substituted text takes part in what a later pass over the template finds. -/
def ValuesUntouched (values : WorkflowVariables) (template : String) : Prop :=
  Chunk.AllUntouched '$' (valueFinders (nodeValues values)) (Chunk.chunks '$' template.toList)

structure PlacesContext (values : WorkflowVariables) (context template prompt : String) : Prop where
  included : context.toList <:+: prompt.toList
  inserted : NamesContext (filledTemplate values template) →
    ContextInserted context.toList (filledTemplate values template) prompt.toList
  appended : ¬NamesContext (filledTemplate values template) →
    prompt.toList = filledTemplate values template ++ (contextSeparator ++ context).toList
  templateNamed : ValuesUntouched values template → NamesContext template.toList →
    prompt.toList = replacedTemplate values template
  templateNameless : ValuesUntouched values template → ¬NamesContext template.toList →
    prompt.toList = replacedTemplate values template ++ (contextSeparator ++ context).toList

section

variable {values : WorkflowVariables} {context template prompt : String}

theorem toList_prompt (given : values.issueContext = some context)
    (built : buildPromptWithContext values template = .ok prompt) :
    prompt.toList = (contextLoop context.toList 0 (filledTemplate values template)).1 ++
      if (contextLoop context.toList 0 (filledTemplate values template)).2 then []
      else (contextSeparator ++ context).toList := by
  rcases buildPromptWithContext_of_ok built with ⟨result, substituted, rfl⟩
  rcases substituteWorkflowVariables_of_ok substituted with ⟨text, flag⟩
  have kept : (nodeValues values).issueContext = some context := given
  rw [kept, Option.isSome_some, Bool.and_true] at flag
  rw [kept] at text
  rw [String.toList_append, text, flag, appendedContext, given, Option.getD_some,
    toList_substituteContextVars, substituteContextVars_snd, ← filledTemplate]
  cases (contextLoop context.toList 0 (filledTemplate values template)).2 with
  | true => rfl
  | false => rfl

theorem replacedTemplate_eq (values : WorkflowVariables) (template : String) :
    replacedTemplate values template =
      Chunk.written '$' (valueChunks (nodeValues values) (Chunk.chunks '$' template.toList)) := by
  rw [replacedTemplate, Finder.replace,
    Chunk.pass_chunks (Chunk.opened_first (opened_valueFinders _)), valueChunks]

/-- Where no substituted text takes part, the prompt is made of the template alone. -/
theorem toList_prompt_of_untouched (given : values.issueContext = some context)
    (built : buildPromptWithContext values template = .ok prompt)
    (untouched : ValuesUntouched values template) :
    prompt.toList = replacedTemplate values template ++
      if (substituteContextVars template "").2 then []
      else (contextSeparator ++ context).toList := by
  have spelled := (@Chunk.written_chunks '$' template.toList).symm
  rw [toList_buildPromptWithContext spelled (Chunk.unmarked_chunks _) untouched built,
    Chunk.written_append, written_appendedChunks, ← namesContext_eq, appendedContext, given,
    replacedTemplate_eq]
  split
  · rfl
  · rfl

theorem placesContext (given : values.issueContext = some context)
    (built : buildPromptWithContext values template = .ok prompt) :
    PlacesContext values context template prompt := by
  have whole := toList_prompt given built
  rcases inserted_contextLoop context.toList (filledTemplate values template) with
    ⟨inserted, found⟩
  have named : NamesContext (filledTemplate values template) → prompt.toList =
      (contextLoop context.toList 0 (filledTemplate values template)).1 := by
    intro names
    rw [whole, if_pos (found.mpr names), List.append_nil]
  have nameless : ¬NamesContext (filledTemplate values template) → prompt.toList =
      filledTemplate values template ++ (contextSeparator ++ context).toList := by
    intro none
    rw [whole, if_neg (mt found.mp none), inserted.eq_of_not none]
  refine ⟨?_, ?_, nameless, ?_, ?_⟩
  · by_cases names : NamesContext (filledTemplate values template)
    · rw [named names]
      exact inserted.infix names
    · rw [nameless names, String.toList_append]
      exact ((List.suffix_append _ _).trans (List.suffix_append _ _)).isInfix
  · intro names
    rw [named names]
    exact inserted
  · intro untouched names
    rw [toList_prompt_of_untouched given built untouched,
      if_pos ((namesContext_iff template).mpr names), List.append_nil]
  · intro untouched none
    rw [toList_prompt_of_untouched given built untouched,
      if_neg (mt (namesContext_iff template).mp none)]

end

/-- The context is in every prompt: at each context variable of the text with the other
variables filled in, and after the text where that has none. -/
theorem buildPromptWithContext_placesContext (values : WorkflowVariables)
    (context template : String) :
    match buildPromptWithContext { values with issueContext := some context } template with
    | .ok prompt =>
        PlacesContext { values with issueContext := some context } context template prompt
    | .error _ => values.baseBranch = "" ∧ template.mentions "$BASE_BRANCH" = true := by
  cases built : buildPromptWithContext { values with issueContext := some context } template with
  | ok prompt => exact placesContext rfl built
  | error error =>
      have failed := (@buildPromptWithContext_error_iff
        { values with issueContext := some context } template).mp ⟨error, built⟩
      exact failed

/-- A message that names the context gets it, though the template does not; and one that
continues a name takes the context away from the template. -/
theorem buildPromptWithContext_message :
    (buildPromptWithContext { messageValues "$CONTEXT" with issueContext := some "Issue 7" }
        "$USER_MESSAGE" = .ok "Issue 7" ∧ ¬NamesContext "$USER_MESSAGE".toList) ∧
      buildPromptWithContext { messageValues "ual" with issueContext := some "Issue 7" }
          "$CONTEXT$USER_MESSAGE" = .ok "$CONTEXTual\n\n---\n\nIssue 7" ∧
        NamesContext "$CONTEXT$USER_MESSAGE".toList := by
  rw [← namesContext_iff, ← namesContext_iff]
  decide +kernel

end Substitution

end HarnessAgent
