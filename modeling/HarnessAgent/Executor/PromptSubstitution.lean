import HarnessAgent.Executor.NodeExecution
import HarnessAgent.Foundation.SealedText

/-! # Prompts as simultaneous substitutions

The variables of a prompt are replaced one after the other, and references to outputs
after them. Each of these passes looks through the whole text that it gets, with the
values that earlier passes have put in. Where no value takes part in what a later pass
finds, the prompt is the simultaneous substitution of what the template itself names.
-/

namespace HarnessAgent

namespace Substitution

open Text Text.Finder

/-! ## The passes -/

def contextFinder (replacement : List Char) : Finder :=
  fun text => (afterContextVariable text).map fun rest => (replacement, rest)

variable (replacement : List Char)

theorem pass_contextFinder (skip : Nat) (text : List Char) :
    pass (contextFinder replacement) skip text = contextLoop replacement skip text := by
  induction text generalizing skip with
  | nil => cases skip with
    | zero => rfl
    | succ skip => rfl
  | cons character rest induction =>
      cases skip with
      | succ skip => exact induction skip
      | zero =>
          rw [Finder.pass, contextLoop]
          cases present : afterContextVariable (character :: rest) with
          | some remaining =>
              have found : contextFinder replacement (character :: rest) =
                  some (replacement, remaining) := congrArg (Option.map _) present
              rw [found]
              dsimp only
              rw [induction]
          | none =>
              have absent : contextFinder replacement (character :: rest) = none :=
                congrArg (Option.map _) present
              rw [absent]
              dsimp only
              rw [induction]

variable (serde : SerdeJson) (canWrite : String → Bool) (nodeOutputs : NodeOutputs)

def referenceFinder : Finder :=
  fun text => (OutputReference.parse text).map fun found =>
    ((replaceReference serde canWrite nodeOutputs false none found.1).text.toList, found.2)

theorem pass_referenceFinder (skip : Nat) (text : List Char) :
    (pass (referenceFinder serde canWrite nodeOutputs) skip text).1 =
      (segmentLoop skip text).flatMap fun segment =>
        (replaceSegment serde canWrite nodeOutputs false none segment).text.toList := by
  induction text generalizing skip with
  | nil => cases skip with
    | zero => rfl
    | succ skip => rfl
  | cons character rest induction =>
      cases skip with
      | succ skip => exact induction skip
      | zero =>
          rw [Finder.pass, segmentLoop]
          cases present : OutputReference.parse (character :: rest) with
          | some result =>
              rcases result with ⟨reference, remaining⟩
              have found : referenceFinder serde canWrite nodeOutputs (character :: rest) =
                  some ((replaceReference serde canWrite nodeOutputs false none
                    reference).text.toList, remaining) := congrArg (Option.map _) present
              rw [found]
              dsimp only
              rw [induction, List.flatMap_cons]
              rfl
          | none =>
              have absent : referenceFinder serde canWrite nodeOutputs (character :: rest) =
                  none := congrArg (Option.map _) present
              rw [absent]
              dsimp only
              rw [induction, List.flatMap_cons, replaceSegment, String.toList_singleton]
              rfl

theorem toList_substituteNodeOutputRefs (prompt : String) :
    (substituteNodeOutputRefs serde canWrite nodeOutputs false none prompt).toList =
      (referenceFinder serde canWrite nodeOutputs).replace prompt.toList := by
  rw [substituteNodeOutputRefs, String.toList_join, List.flatMap_map]
  exact (pass_referenceFinder serde canWrite nodeOutputs 0 prompt.toList).symm

theorem toList_substituted (named : name.toList ≠ []) (text replacement : String) :
    (text.substituted name replacement).toList =
      (literal name.toList replacement.toList).replace text.toList := by
  rw [String.substituted, String.toList_ofList, Finder.replace]
  cases spelled : name.toList with
  | nil => exact absurd spelled named
  | cons first rest => exact (pass_literal 0 text.toList).symm

/-! ## Matches of the passes -/

theorem contextFinder_eq_first :
    contextFinder replacement =
      first (contextVariables.map fun name =>
        wholeLiteral Reference.isFieldPart name.toList replacement) := by
  funext text
  rw [contextFinder, afterContextVariable, List.map_findSome?, first, List.findSome?_map]
  rfl

def IsVariable (name : String) : Prop :=
  name.toList.head? = some '$' ∧ '$' ∉ name.toList.tail

instance (name : String) : Decidable (IsVariable name) :=
  inferInstanceAs (Decidable (_ ∧ _))

theorem IsVariable.spelled (variableName : IsVariable name) :
    ∃ letters, name.toList = '$' :: letters ∧ '$' ∉ letters :=
  ⟨name.toList.tail, (List.cons_head?_tail variableName.1).symm, variableName.2⟩

theorem opened_contextFinder : Opened '$' (contextFinder replacement) := by
  rw [contextFinder_eq_first]
  apply Chunk.opened_first
  intro find member
  rcases List.mem_map.mp member with ⟨name, listed, rfl⟩
  have all : ∀ name ∈ contextVariables, IsVariable name := by decide
  rcases (all name listed).spelled with ⟨letters, spelled, absent⟩
  rw [spelled]
  exact opened_wholeLiteral (by decide) absent replacement

theorem parse_append {body : List Char} (follows : ∀ character ∈ after.head?, character = '$') :
    OutputReference.parse ('$' :: (body ++ after)) =
      (OutputReference.parse ('$' :: body)).map fun found => (found.1, found.2 ++ after) := by
  have node : Bounded '$' Reference.nodeId := bounded_identifier (by decide) (by decide)
  have field : Bounded '$' Reference.field := bounded_identifier (by decide) (by decide)
  rw [parse_dollar, parse_dollar, node follows]
  cases Reference.nodeId body with
  | none => rfl
  | some named =>
      dsimp only [Option.map_some, Option.bind_some]
      rw [afterLiteral_append (by decide) follows]
      cases afterLiteral ".output".toList named.2 with
      | none => rfl
      | some rest =>
          dsimp only [Option.map_some, Option.bind_some]
          rw [afterLiteral_append (by decide) follows]
          cases afterLiteral ['.'] rest with
          | none => rfl
          | some rest =>
              dsimp only [Option.map_some, Option.bind_some]
              rw [field follows]
              cases Reference.field rest with
              | none => rfl
              | some named => rfl

variable {text : List Char}

theorem afterLiteral_suffix (after : afterLiteral name text = some rest) : rest <:+ text :=
  ⟨name, List.isPrefixOf?_eq_some_iff_append_eq.mp after⟩

theorem identifier_suffix (named : identifier isStart isPart text = some found) :
    found.2 <:+ text := by
  cases text with
  | nil => cases named
  | cons character rest =>
      rw [identifier] at named
      split at named
      · cases named
        exact (List.dropWhile_suffix _).trans (List.suffix_cons _ _)
      · cases named

theorem parse_suffix (parsed : OutputReference.parse ('$' :: body) = some (reference, rest)) :
    rest <:+ body := by
  rw [parse_dollar] at parsed
  rcases Option.bind_eq_some_iff.mp parsed with ⟨named, node, output⟩
  rcases Option.bind_eq_some_iff.mp output with ⟨tail, literal, ends⟩
  have inside : tail <:+ body := (afterLiteral_suffix literal).trans (identifier_suffix node)
  split at ends
  · next field after present =>
      cases ends
      rcases Option.bind_eq_some_iff.mp present with ⟨dotted, dot, spelled⟩
      exact (identifier_suffix spelled).trans ((afterLiteral_suffix dot).trans inside)
  · cases ends
    exact inside

theorem opened_referenceFinder : Opened '$' (referenceFinder serde canWrite nodeOutputs) where
  starts := by
    intro character rest found present
    rcases Option.map_eq_some_iff.mp present with ⟨reference, parsed, -⟩
    rcases Option.bind_eq_some_iff.mp parsed with ⟨after, dollar, -⟩
    have split := List.isPrefixOf?_eq_some_iff_append_eq.mp dollar
    exact (List.cons.inj split).1.symm
  splits := by
    intro body found present
    rcases Option.map_eq_some_iff.mp present with ⟨⟨reference, rest⟩, parsed, rfl⟩
    exact parse_suffix parsed
  bounded := by
    intro body after follows
    rw [referenceFinder, referenceFinder, parse_append follows]
    cases OutputReference.parse ('$' :: body) with
    | none => rfl
    | some found => rfl

/-! ## Variables -/

def variableValues (values : WorkflowVariables) : List (String × String) :=
  [("$WORKFLOW_ID", values.workflowId), ("$ARTIFACTS_DIR", values.artifactsDir),
    ("$BASE_BRANCH", values.baseBranch),
    ("$DOCS_DIR", if values.docsDir = "" then "docs/" else values.docsDir),
    ("$USER_MESSAGE", values.userMessage), ("$ARGUMENTS", values.userMessage),
    ("$LOOP_USER_INPUT", values.loopUserInput.getD ""),
    ("$REJECTION_REASON", values.rejectionReason.getD ""),
    ("$LOOP_PREV_OUTPUT", values.loopPrevOutput.getD "")]

def variableFinders (values : WorkflowVariables) : List Finder :=
  (variableValues values).map fun named => literal named.1.toList named.2.toList

def valueFinders (values : WorkflowVariables) : List Finder :=
  variableFinders values ++ [contextFinder (values.issueContext.getD "").toList]

def promptFinders (values : WorkflowVariables) : List Finder :=
  valueFinders values ++ [referenceFinder serde canWrite nodeOutputs]

theorem opened_variableFinders (values : WorkflowVariables) :
    ∀ find ∈ variableFinders values, Opened '$' find := by
  intro find member
  rcases List.mem_map.mp member with ⟨⟨name, value⟩, listed, rfl⟩
  have all : ∀ named ∈ variableValues values, IsVariable named.1 := by
    simp only [variableValues, List.forall_mem_cons]
    decide
  rcases (all _ listed).spelled with ⟨letters, spelled, absent⟩
  dsimp only at spelled
  rw [spelled]
  exact opened_literal absent value.toList

theorem opened_valueFinders (values : WorkflowVariables) :
    ∀ find ∈ valueFinders values, Opened '$' find := by
  intro find member
  rcases List.mem_append.mp member with earlier | last
  · exact opened_variableFinders values find earlier
  · rw [List.mem_singleton.mp last]
    exact opened_contextFinder _

theorem opened_promptFinders (values : WorkflowVariables) :
    ∀ find ∈ promptFinders serde canWrite nodeOutputs values, Opened '$' find := by
  intro find member
  rcases List.mem_append.mp member with earlier | last
  · exact opened_valueFinders values find earlier
  · rw [List.mem_singleton.mp last]
    exact opened_referenceFinder serde canWrite nodeOutputs

theorem toList_foldl_substituted (named : List (String × String))
    (shown : ∀ one ∈ named, one.1.toList ≠ []) (text : String) :
    (named.foldl (fun text one => text.substituted one.1 one.2) text).toList =
      replaceEach (named.map fun one => literal one.1.toList one.2.toList) text.toList := by
  induction named generalizing text with
  | nil => rfl
  | cons one named induction =>
      rcases List.forall_mem_cons.mp shown with ⟨here, later⟩
      rw [List.foldl_cons, induction later, toList_substituted here]
      rfl

/-- The text after the passes over the variables that are not context variables. -/
def withVariables (values : WorkflowVariables) (prompt : String) : String :=
  (variableValues values).foldl (fun text named => text.substituted named.1 named.2) prompt

theorem toList_withVariables (values : WorkflowVariables) (prompt : String) :
    (withVariables values prompt).toList = replaceEach (variableFinders values) prompt.toList := by
  apply toList_foldl_substituted
  simp only [variableValues, List.forall_mem_cons]
  decide

variable {values : WorkflowVariables}

theorem substituteWorkflowVariables_of_ok
    (substituted : substituteWorkflowVariables values false prompt = .ok result) :
    result.prompt =
        (substituteContextVars (withVariables values prompt) (values.issueContext.getD "")).1 ∧
      result.contextSubstituted =
        ((substituteContextVars (withVariables values prompt) (values.issueContext.getD "")).2 &&
          values.issueContext.isSome) := by
  rw [substituteWorkflowVariables] at substituted
  split at substituted
  · cases substituted
  · dsimp only at substituted
    rw [if_neg Bool.false_ne_true, Except.ok.injEq] at substituted
    rw [← substituted]
    simp only [withVariables, variableValues, List.foldl_cons, List.foldl_nil, and_self]

theorem substituteWorkflowVariables_eq
    (substituted : substituteWorkflowVariables values false prompt = .ok result) :
    result.prompt.toList = replaceEach (valueFinders values) prompt.toList ∧
      result.contextSubstituted =
        ((pass (contextFinder (values.issueContext.getD "").toList) 0
          (replaceEach (variableFinders values) prompt.toList)).2 &&
            values.issueContext.isSome) := by
  rcases substituteWorkflowVariables_of_ok substituted with ⟨text, flag⟩
  constructor
  · rw [text, substituteContextVars, String.toList_ofList, toList_withVariables,
      ← pass_contextFinder, valueFinders, replaceEach_append]
    rfl
  · rw [flag, substituteContextVars, toList_withVariables, ← pass_contextFinder]

/-! ## Which passes find something -/

theorem literal_eq_none {name replacement : List Char} :
    literal name replacement text = none ↔ afterLiteral name text = none :=
  Option.map_eq_none_iff

/-- Whether some pass finds something does not depend on the values. -/
theorem first_promptFinders_eq_none {other : WorkflowVariables}
    (nothing : first (promptFinders serde canWrite nodeOutputs values) text = none) :
    first (promptFinders serde canWrite nodeOutputs other) text = none := by
  rw [first, List.findSome?_eq_none_iff] at nothing ⊢
  simp only [promptFinders, valueFinders, variableFinders, variableValues, List.map_cons,
    List.map_nil, List.forall_mem_append, List.forall_mem_cons, literal_eq_none, contextFinder,
    Option.map_eq_none_iff] at nothing ⊢
  exact nothing

theorem first_append_eq_none {finders more : List Finder} :
    first (finders ++ more) text = none ↔ first finders text = none ∧ first more text = none := by
  rw [first_append, Option.or_eq_none_iff]

theorem first_variableFinders_of_contextFinder {replacement : List Char}
    (present : (contextFinder replacement text).isSome = true) :
    first (variableFinders values) text = none := by
  rw [contextFinder_eq_first, first, List.findSome?_map, List.findSome?_isSome_iff] at present
  rcases present with ⟨context, listed, found⟩
  rcases Option.isSome_iff_exists.mp found with ⟨result, matched⟩
  have starts := (literal_eq_some.mp (literal_of_wholeLiteral matched)).2
  rw [first, List.findSome?_eq_none_iff]
  intro find member
  rcases List.mem_map.mp member with ⟨⟨name, value⟩, named, rfl⟩
  cases other : literal name.toList value.toList text with
  | none => rfl
  | some second =>
      have begins := (literal_eq_some.mp other).2
      have apart : ∀ named ∈ variableValues values, ∀ context ∈ contextVariables,
          ¬ named.1.toList <+: context.toList ∧ ¬ context.toList <+: named.1.toList := by
        simp only [variableValues, List.forall_mem_cons]
        decide
      have separate := apart _ named context listed
      rcases List.prefix_or_prefix_of_prefix ⟨second.2, begins.symm⟩ ⟨result.2, starts.symm⟩ with
        shorter | longer
      · exact absurd shorter separate.1
      · exact absurd longer separate.2

/-! ## Prompts -/

def contextSeparator : String :=
  "\n\n---\n\n"

/-- The values for the prompt of a node; those of loops and rejections are empty. -/
def nodeValues (values : WorkflowVariables) : WorkflowVariables :=
  { values with loopUserInput := none, rejectionReason := none, loopPrevOutput := none }

inductive PromptKind
  /-- A command or prompt node. -/
  | node
  /-- An iteration of a loop. -/
  | iteration
  /-- The answer to a rejection: its prompt becomes the prompt of a node. -/
  | rejection
  deriving DecidableEq

def nodePrompt (values : WorkflowVariables) (template : String) :
    Except BaseBranchEmptyError String :=
  (buildPromptWithContext values template).map fun prompt =>
    substituteNodeOutputRefs serde canWrite nodeOutputs false none prompt

def iterationPrompt (values : WorkflowVariables) (template : String) :
    Except BaseBranchEmptyError String :=
  (substituteWorkflowVariables values false template).map fun result =>
    substituteNodeOutputRefs serde canWrite nodeOutputs false none result.prompt

/-- The prompt that is sent to the agent. -/
def promptSent (kind : PromptKind) (values : WorkflowVariables) (template : String) :
    Except BaseBranchEmptyError String :=
  match kind with
  | .node => nodePrompt serde canWrite nodeOutputs values template
  | .iteration => iterationPrompt serde canWrite nodeOutputs values template
  | .rejection =>
      (iterationPrompt serde canWrite nodeOutputs values template).bind fun prompt =>
        nodePrompt serde canWrite nodeOutputs values prompt

def simultaneous (values : WorkflowVariables) (template : String) : String :=
  String.ofList ((first (promptFinders serde canWrite nodeOutputs values)).replace template.toList)

def appendedContext (values : WorkflowVariables) : String :=
  match values.issueContext with
  | some context => contextSeparator ++ context
  | none => ""

/-- A prompt without substitution into values. The issue context follows the prompt of a
node that names no context variable, and every answer to a rejection. -/
def simultaneousPrompt (kind : PromptKind) (values : WorkflowVariables) (template : String) :
    String :=
  match kind with
  | .node =>
      simultaneous serde canWrite nodeOutputs (nodeValues values) template ++
        (if (substituteContextVars template "").2 then "" else appendedContext values)
  | .iteration => simultaneous serde canWrite nodeOutputs values template
  | .rejection =>
      simultaneous serde canWrite nodeOutputs values template ++ appendedContext values

/-! ## Prompts in chunks -/

def valueChunks (values : WorkflowVariables) (chunks : List Chunk) : List Chunk :=
  chunks.flatMap (Chunk.expand '$' (first (valueFinders values)))

def appendedChunks (values : WorkflowVariables) (chunks : List Chunk) : List Chunk :=
  if chunks.any (Chunk.found '$' (contextFinder [])) then []
  else [.value (appendedContext values).toList]

/-- No value takes part in what a pass over the prompt of a node finds. -/
def NodeUntouched (values : WorkflowVariables) (chunks : List Chunk) : Prop :=
  Chunk.AllUntouched '$' (valueFinders (nodeValues values)) chunks ∧
    Chunk.Untouched '$' (referenceFinder serde canWrite nodeOutputs)
      (valueChunks (nodeValues values) chunks ++ appendedChunks values chunks)

def PromptUntouched (kind : PromptKind) (values : WorkflowVariables) (template : String) : Prop :=
  let chunks := Chunk.chunks '$' template.toList
  match kind with
  | .node => NodeUntouched serde canWrite nodeOutputs values chunks
  | .iteration => Chunk.AllUntouched '$' (promptFinders serde canWrite nodeOutputs values) chunks
  | .rejection =>
      Chunk.AllUntouched '$' (promptFinders serde canWrite nodeOutputs values) chunks ∧
        NodeUntouched serde canWrite nodeOutputs values
          (chunks.flatMap (Chunk.expand '$' (first (promptFinders serde canWrite nodeOutputs values))))

instance (values : WorkflowVariables) (chunks : List Chunk) :
    Decidable (NodeUntouched serde canWrite nodeOutputs values chunks) :=
  inferInstanceAs (Decidable (_ ∧ _))

instance (kind : PromptKind) (values : WorkflowVariables) (template : String) :
    Decidable (PromptUntouched serde canWrite nodeOutputs kind values template) :=
  match kind with
  | .node => inferInstanceAs (Decidable (NodeUntouched ..))
  | .iteration => inferInstanceAs (Decidable (Chunk.AllUntouched ..))
  | .rejection => inferInstanceAs (Decidable (_ ∧ _))

/-! ## What is sent -/

variable {serde canWrite nodeOutputs}

variable {chunks : List Chunk}

theorem unmarked_valueChunks (unmarked : ∀ chunk ∈ chunks, chunk.Unmarked '$')
    (values : WorkflowVariables) : ∀ chunk ∈ valueChunks values chunks, chunk.Unmarked '$' :=
  Chunk.unmarked_flatMap_expand (Chunk.opened_first (opened_valueFinders values)) unmarked

theorem found_contextFinder (replacement other : List Char) :
    Chunk.found '$' (contextFinder replacement) = Chunk.found '$' (contextFinder other) := by
  funext chunk
  cases chunk with
  | value text => rfl
  | plain text => rfl
  | marked body =>
      rw [Chunk.found, Chunk.found, contextFinder, contextFinder, Option.isSome_map,
        Option.isSome_map]

theorem contextFound_written (unmarked : ∀ chunk ∈ chunks, chunk.Unmarked '$')
    (untouched : Chunk.AllUntouched '$' (valueFinders values) chunks) :
    (pass (contextFinder (values.issueContext.getD "").toList) 0
        (replaceEach (variableFinders values) (Chunk.written '$' chunks))).2 =
      chunks.any (Chunk.found '$' (contextFinder [])) := by
  rcases Chunk.allUntouched_append.mp untouched with ⟨earlier, context⟩
  have opened := opened_variableFinders values
  have apart : ∀ text,
      (contextFinder (values.issueContext.getD "").toList text).isSome = true →
        first (variableFinders values) text = none :=
    fun text => first_variableFinders_of_contextFinder
  rw [Chunk.replaceEach_written opened unmarked earlier,
    Chunk.pass_written (opened_contextFinder _)
      (Chunk.unmarked_flatMap_expand (Chunk.opened_first opened) unmarked) context.1]
  dsimp only
  rw [Chunk.any_found_flatMap_expand apart, found_contextFinder _ []]

variable {template : String}

theorem buildPromptWithContext_of_ok (built : buildPromptWithContext values template = .ok prompt) :
    ∃ result, substituteWorkflowVariables (nodeValues values) false template = .ok result ∧
      prompt = result.prompt ++
        (if result.contextSubstituted then "" else appendedContext values) := by
  rw [buildPromptWithContext] at built
  rw [nodeValues, appendedContext]
  cases substituted : substituteWorkflowVariables
      { values with loopUserInput := none, rejectionReason := none, loopPrevOutput := none }
      false template with
  | error error =>
      rw [substituted] at built
      cases built
  | ok result =>
      rw [substituted] at built
      refine ⟨result, rfl, ?_⟩
      cases context : values.issueContext with
      | none =>
          rw [context] at built
          cases built
          split
          · exact String.append_empty.symm
          · exact String.append_empty.symm
      | some given =>
          rw [context] at built
          have either : (if result.contextSubstituted then .ok result.prompt
              else .ok (result.prompt ++ contextSeparator ++ given) :
                Except BaseBranchEmptyError String) = .ok prompt := built
          split at either
          · next flag =>
              cases either
              rw [if_pos flag]
              exact String.append_empty.symm
          · next flag =>
              cases either
              rw [if_neg flag]
              exact String.append_assoc

theorem toList_buildPromptWithContext (spelled : template.toList = Chunk.written '$' chunks)
    (unmarked : ∀ chunk ∈ chunks, chunk.Unmarked '$')
    (untouched : Chunk.AllUntouched '$' (valueFinders (nodeValues values)) chunks)
    (built : buildPromptWithContext values template = .ok prompt) :
    prompt.toList =
      Chunk.written '$' (valueChunks (nodeValues values) chunks ++ appendedChunks values chunks) := by
  rcases buildPromptWithContext_of_ok built with ⟨result, substituted, rfl⟩
  rcases substituteWorkflowVariables_eq substituted with ⟨text, flag⟩
  rw [spelled] at text flag
  have filled : result.prompt.toList =
      Chunk.written '$' (valueChunks (nodeValues values) chunks) :=
    text.trans (Chunk.replaceEach_written (opened_valueFinders _) unmarked untouched)
  rw [contextFound_written unmarked untouched] at flag
  rw [String.toList_append, filled, Chunk.written_append, flag, appendedChunks]
  congr 1
  cases chunks.any (Chunk.found '$' (contextFinder [])) with
  | false => exact (List.append_nil _).symm
  | true =>
      rw [Bool.true_and, nodeValues, appendedContext]
      cases values.issueContext with
      | none => rfl
      | some context => rfl

theorem flatMap_expand_appendedChunks (find : Finder) (values : WorkflowVariables)
    (chunks : List Chunk) :
    (appendedChunks values chunks).flatMap (Chunk.expand '$' find) =
      appendedChunks values chunks := by
  rw [appendedChunks]
  split
  · rfl
  · rfl

theorem unmarked_appendedChunks (values : WorkflowVariables) (chunks : List Chunk) :
    ∀ chunk ∈ appendedChunks values chunks, chunk.Unmarked '$' := by
  intro chunk member
  rw [appendedChunks] at member
  split at member
  · cases member
  · rw [List.mem_singleton.mp member]
    trivial

theorem toList_nodePrompt (spelled : template.toList = Chunk.written '$' chunks)
    (unmarked : ∀ chunk ∈ chunks, chunk.Unmarked '$')
    (untouched : NodeUntouched serde canWrite nodeOutputs values chunks)
    (sent : nodePrompt serde canWrite nodeOutputs values template = .ok prompt) :
    prompt.toList =
      Chunk.written '$' (chunks.flatMap (Chunk.expand '$'
          (first (promptFinders serde canWrite nodeOutputs (nodeValues values))))) ++
        Chunk.written '$' (appendedChunks values chunks) := by
  rcases untouched with ⟨variableNames, references⟩
  cases built : buildPromptWithContext values template with
  | error error =>
      rw [nodePrompt, built] at sent
      cases sent
  | ok substituted =>
      rw [nodePrompt, built] at sent
      cases sent
      have opened := opened_referenceFinder serde canWrite nodeOutputs
      have shown : ∀ chunk ∈ valueChunks (nodeValues values) chunks ++ appendedChunks values chunks,
          chunk.Unmarked '$' :=
        List.forall_mem_append.mpr
          ⟨unmarked_valueChunks unmarked _, unmarked_appendedChunks values chunks⟩
      rw [toList_substituteNodeOutputRefs,
        toList_buildPromptWithContext spelled unmarked variableNames built, Finder.replace,
        Chunk.pass_written opened shown references]
      dsimp only
      rw [List.flatMap_append, Chunk.written_append, flatMap_expand_appendedChunks, valueChunks,
        ← @first_singleton (referenceFinder serde canWrite nodeOutputs),
        Chunk.flatMap_expand_append, promptFinders]

theorem toList_iterationPrompt
    (sent : iterationPrompt serde canWrite nodeOutputs values template = .ok prompt) :
    prompt.toList =
      replaceEach (promptFinders serde canWrite nodeOutputs values) template.toList := by
  cases substituted : substituteWorkflowVariables values false template with
  | error error =>
      rw [iterationPrompt, substituted] at sent
      cases sent
  | ok result =>
      rw [iterationPrompt, substituted] at sent
      cases sent
      rw [toList_substituteNodeOutputRefs, (substituteWorkflowVariables_eq substituted).1,
        promptFinders, replaceEach_append]
      rfl

theorem toList_simultaneous (values : WorkflowVariables) (template : String) :
    (simultaneous serde canWrite nodeOutputs values template).toList =
      Chunk.written '$' ((Chunk.chunks '$' template.toList).flatMap (Chunk.expand '$'
        (first (promptFinders serde canWrite nodeOutputs values)))) := by
  rw [simultaneous, String.toList_ofList, Finder.replace,
    Chunk.pass_chunks (Chunk.opened_first (opened_promptFinders serde canWrite nodeOutputs values))]

theorem namesContext_eq (template : String) :
    (substituteContextVars template "").2 =
      (Chunk.chunks '$' template.toList).any (Chunk.found '$' (contextFinder [])) := by
  rw [substituteContextVars, ← pass_contextFinder, Chunk.pass_chunks (opened_contextFinder _)]
  rfl

theorem any_contextFinder_expanded (values : WorkflowVariables) (chunks : List Chunk) :
    (chunks.flatMap (Chunk.expand '$'
      (first (promptFinders serde canWrite nodeOutputs values)))).any
        (Chunk.found '$' (contextFinder [])) = false := by
  rw [List.any_flatMap, List.any_eq_false]
  intro chunk _ found
  cases chunk with
  | value text => cases found
  | plain text => cases found
  | marked body =>
      rw [Chunk.expand] at found
      cases present : first (promptFinders serde canWrite nodeOutputs values) ('$' :: body) with
      | some result =>
          rw [present] at found
          cases found
      | none =>
          rw [present] at found
          rw [promptFinders, valueFinders, first_append_eq_none, first_append_eq_none,
            first_singleton] at present
          have absent := present.1.2
          rw [contextFinder, Option.map_eq_none_iff] at absent
          rw [List.any_cons, List.any_nil, Bool.or_false, Chunk.found, contextFinder, absent] at found
          cases found

theorem written_appendedChunks (values : WorkflowVariables) (chunks : List Chunk) :
    Chunk.written '$' (appendedChunks values chunks) =
      (if chunks.any (Chunk.found '$' (contextFinder [])) then ""
        else appendedContext values).toList := by
  rw [appendedChunks]
  split
  · rfl
  · exact List.append_nil _

theorem toList_rejectionPrompt
    (sent : promptSent serde canWrite nodeOutputs .rejection values template = .ok prompt)
    (untouched : PromptUntouched serde canWrite nodeOutputs .rejection values template) :
    prompt.toList =
      (simultaneous serde canWrite nodeOutputs values template).toList ++
        (appendedContext values).toList := by
  rcases untouched with ⟨firstRound, secondRound⟩
  have opened := opened_promptFinders serde canWrite nodeOutputs values
  have unmarked := @Chunk.unmarked_chunks '$' template.toList
  rw [promptSent] at sent
  cases iterated : iterationPrompt serde canWrite nodeOutputs values template with
  | error error =>
      rw [iterated] at sent
      cases sent
  | ok inner =>
      rw [iterated] at sent
      have spelled : inner.toList = _ :=
        (toList_iterationPrompt iterated).trans
          ((congrArg _ (@Chunk.written_chunks '$' template.toList).symm).trans
            (Chunk.replaceEach_written opened unmarked firstRound))
      have shown := Chunk.unmarked_flatMap_expand (Chunk.opened_first opened) unmarked
      rw [toList_nodePrompt spelled shown secondRound sent, toList_simultaneous,
        written_appendedChunks, any_contextFinder_expanded, if_neg Bool.false_ne_true,
        Chunk.flatMap_expand_of_none fun text =>
          first_promptFinders_eq_none serde canWrite nodeOutputs]

/-! ## The prompts of a run -/

section

variable {environment : NodeEnvironment} {prompt : String}

def Asked (environment : NodeEnvironment) (first prompt : String) : Prop :=
  prompt = first ∨
    ∃ attempt node session, prompt ∈ (environment.stream attempt node session first).reasks

theorem query_executeNodeInternal (asked : Use.query prompt ∈
      (environment.executeNodeInternal node provider nodeOutputs resumeSession attempt).uses) :
    ∃ template first, environment.rawPrompt node = .ok template ∧
      promptSent environment.serde environment.canWrite nodeOutputs .node
        environment.workflowVariables template = .ok first ∧
      Asked environment first prompt := by
  rw [NodeEnvironment.executeNodeInternal] at asked
  split at asked
  · cases asked
  · next template read =>
      split at asked
      · cases asked
      · next substituted built =>
          dsimp only at asked
          split at asked
          · refine ⟨template, environment.substitutePlain nodeOutputs substituted, read, ?_, ?_⟩
            · rw [promptSent, nodePrompt, built]
              rfl
            · rcases List.mem_cons.mp asked with own | again
              · cases own
                exact .inl rfl
              · rcases List.mem_map.mp again with ⟨reask, member, same⟩
                cases same
                exact .inr ⟨_, _, _, member⟩
          · cases asked

theorem promptSent_of_loopPrompt (asked : environment.loopPrompt frame iteration state = .ok prompt) :
    promptSent environment.serde environment.canWrite frame.nodeOutputs .iteration
      { environment.workflowVariables with
        loopUserInput := some (frame.userInput iteration)
        loopPrevOutput := some (if iteration = frame.start then "" else state.lastOutput) }
      frame.node.loopConfig.prompt = .ok prompt := by
  rw [NodeEnvironment.loopPrompt] at asked
  split at asked
  · cases asked
  · split at asked
    · dsimp only at asked
      split at asked
      · cases asked
      · next substituted built =>
          cases asked
          rw [promptSent, iterationPrompt, built]
          rfl
    · cases asked

theorem query_executeReject
    (asked : Use.query prompt ∈ (environment.executeReject node onReject reason nodeOutputs).uses) :
    ∃ first,
      promptSent environment.serde environment.canWrite nodeOutputs .rejection
        { environment.workflowVariables with rejectionReason := some reason } onReject.prompt =
          .ok first ∧
      Asked environment first prompt := by
  rw [NodeEnvironment.executeReject] at asked
  dsimp only at asked
  split at asked
  · cases asked
  · next substituted built =>
      split at asked
      · cases asked
      · next provider resolved =>
          have queried : Use.query prompt ∈ (environment.executeNodeInternal
              (NodeEnvironment.rejectNode node
                (environment.substitutePlain nodeOutputs substituted.prompt))
              provider nodeOutputs none 0).uses := by
            split at asked
            · exact asked
            · exact NodeEnvironment.query_of_approvalGate asked
          rcases query_executeNodeInternal queried with ⟨template, first, read, sent, again⟩
          cases read
          refine ⟨first, ?_, again⟩
          rw [promptSent, iterationPrompt, built]
          exact sent

end

/-- A prompt in which no value takes part in what a pass finds is the simultaneous
substitution of the variables and references of its template. -/
theorem promptSent_eq_simultaneousPrompt (kind : PromptKind) (values : WorkflowVariables)
    (template prompt : String)
    (sent : promptSent serde canWrite nodeOutputs kind values template = .ok prompt)
    (untouched : PromptUntouched serde canWrite nodeOutputs kind values template) :
    prompt = simultaneousPrompt serde canWrite nodeOutputs kind values template := by
  rw [← String.toList_inj]
  cases kind with
  | node =>
      have spelled := (@Chunk.written_chunks '$' template.toList).symm
      rw [toList_nodePrompt spelled (Chunk.unmarked_chunks _) untouched sent, simultaneousPrompt,
        String.toList_append, toList_simultaneous, namesContext_eq, written_appendedChunks]
  | iteration =>
      rw [toList_iterationPrompt sent, simultaneousPrompt, simultaneous, String.toList_ofList]
      exact Chunk.replaceEach_eq_replace_first
        (opened_promptFinders serde canWrite nodeOutputs values) untouched
  | rejection =>
      rw [simultaneousPrompt, String.toList_append]
      exact toList_rejectionPrompt sent untouched

def messageValues (userMessage : String) : WorkflowVariables where
  workflowId := "run"
  userMessage
  artifactsDir := "/artifacts"
  baseBranch := "main"
  docsDir := ""

def planOutputs : NodeOutputs :=
  (∅ : NodeOutputs).insert "plan" (.completed "step one" none none none)

def blindSerde : SerdeJson where
  toString _ := ""
  fromStr _ := none

theorem promptSent_eq_simultaneousPrompt_plan :
    "Task: fix it. Plan: step one" =
      simultaneousPrompt blindSerde (fun _ => true) planOutputs .node (messageValues "fix it")
        "Task: $USER_MESSAGE. Plan: $plan.output" :=
  promptSent_eq_simultaneousPrompt .node (messageValues "fix it")
    "Task: $USER_MESSAGE. Plan: $plan.output" "Task: fix it. Plan: step one"
    (by decide +kernel) (by decide +kernel)

theorem promptSent_ne_simultaneousPrompt :
    promptSent blindSerde (fun _ => true) planOutputs .node (messageValues "see $plan.output")
        "Task: $USER_MESSAGE" = .ok "Task: see step one" ∧
      simultaneousPrompt blindSerde (fun _ => true) planOutputs .node
        (messageValues "see $plan.output") "Task: $USER_MESSAGE" = "Task: see $plan.output" ∧
      "Task: see step one" ≠ "Task: see $plan.output" := by
  decide +kernel

end Substitution

end HarnessAgent
