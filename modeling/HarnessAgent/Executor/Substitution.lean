import HarnessAgent.Executor.ConditionEvaluator

/-! # Substitution into the texts of nodes

Variables of the workflow are replaced first, references to the outputs of
other nodes after that. A reference that cannot be resolved leaves the text of
its error in place of a value.
-/

namespace HarnessAgent

/-! ## Workflow variables -/

structure WorkflowVariables where
  workflowId : String
  userMessage : String
  artifactsDir : String
  baseBranch : String
  docsDir : String
  issueContext : Option String := none
  loopUserInput : Option String := none
  rejectionReason : Option String := none
  loopPrevOutput : Option String := none
  deriving DecidableEq, Repr

structure SubstitutionResult where
  prompt : String
  contextSubstituted : Bool
  deriving DecidableEq, Repr

inductive BaseBranchEmptyError
  | baseBranchEmpty
  deriving DecidableEq, Repr

def BaseBranchEmptyError.message (_ : BaseBranchEmptyError) : String :=
  "No base branch could be resolved. Auto-detection failed and `worktree.baseBranch` is not " ++
    "set in .archon/config.yaml. Set the config value or use the --from flag to select a " ++
    "branch (e.g., --from dev)."

namespace Substitution

def contextVariables : List String :=
  ["$CONTEXT", "$EXTERNAL_CONTEXT", "$ISSUE_CONTEXT"]

/-- What follows a context variable, which ends before a character that cannot
be part of a name. -/
def afterContextVariable (text : List Char) : Option (List Char) :=
  contextVariables.findSome? fun name =>
    (Text.afterLiteral name.toList text).bind fun rest =>
      if rest.head?.any Reference.isFieldPart then none else some rest

/-- The loop over a text: characters of a variable still to be skipped, and the
rest. The flag reports whether there was a variable. -/
def contextLoop (replacement : List Char) : Nat → List Char → List Char × Bool
  | _, [] => ([], false)
  | skip + 1, _ :: rest => contextLoop replacement skip rest
  | 0, character :: rest =>
      match afterContextVariable (character :: rest) with
      | some remaining =>
          let later := contextLoop replacement (rest.length - remaining.length) rest
          (replacement ++ later.1, true)
      | none =>
          let later := contextLoop replacement 0 rest
          (character :: later.1, later.2)

def substituteContextVars (input replacement : String) : String × Bool :=
  let result := contextLoop replacement.toList 0 input.toList
  (String.ofList result.1, result.2)

end Substitution

open Substitution

/-- Variables a user controls are only substituted where the text is not handed
to a shell. -/
def substituteWorkflowVariables (values : WorkflowVariables) (shellSafe : Bool)
    (prompt : String) : Except BaseBranchEmptyError SubstitutionResult :=
  if values.baseBranch = "" && prompt.mentions "$BASE_BRANCH" then
    .error .baseBranchEmpty
  else
    let docsDir := if values.docsDir = "" then "docs/" else values.docsDir
    let safe := (((prompt.substituted "$WORKFLOW_ID" values.workflowId).substituted
      "$ARTIFACTS_DIR" values.artifactsDir).substituted
      "$BASE_BRANCH" values.baseBranch).substituted "$DOCS_DIR" docsDir
    if shellSafe then
      let contextFound := (substituteContextVars safe "").2
      .ok { prompt := safe,
            contextSubstituted := contextFound && values.issueContext.isSome }
    else
      let complete := ((((safe.substituted "$USER_MESSAGE" values.userMessage).substituted
        "$ARGUMENTS" values.userMessage).substituted
        "$LOOP_USER_INPUT" (values.loopUserInput.getD "")).substituted
        "$REJECTION_REASON" (values.rejectionReason.getD "")).substituted
        "$LOOP_PREV_OUTPUT" (values.loopPrevOutput.getD "")
      let context := substituteContextVars complete (values.issueContext.getD "")
      .ok { prompt := context.1,
            contextSubstituted := context.2 && values.issueContext.isSome }

/-- Substitution into a prompt; the issue context is appended unless a variable
has already brought it in. -/
def buildPromptWithContext (values : WorkflowVariables) (template : String) :
    Except BaseBranchEmptyError String := do
  let result ← substituteWorkflowVariables
    { values with loopUserInput := none, rejectionReason := none, loopPrevOutput := none }
    false template
  match values.issueContext with
  | some context =>
      if result.contextSubstituted then return result.prompt
      else return result.prompt ++ "\n\n---\n\n" ++ context
  | none => return result.prompt

theorem substituteWorkflowVariables_error_iff {values : WorkflowVariables} {shellSafe : Bool}
    {prompt : String} :
    (∃ error, substituteWorkflowVariables values shellSafe prompt = .error error) ↔
      values.baseBranch = "" ∧ prompt.mentions "$BASE_BRANCH" = true := by
  rw [substituteWorkflowVariables]
  split
  · rename_i missing
    exact iff_of_true ⟨_, rfl⟩ (by simpa using missing)
  · rename_i present
    refine iff_of_false ?_ (by simpa using present)
    cases shellSafe <;> exact nofun

theorem buildPromptWithContext_error_iff {values : WorkflowVariables} {template : String} :
    (∃ error, buildPromptWithContext values template = .error error) ↔
      values.baseBranch = "" ∧ template.mentions "$BASE_BRANCH" = true := by
  rw [← @substituteWorkflowVariables_error_iff
    { values with loopUserInput := none, rejectionReason := none, loopPrevOutput := none }
    false template, buildPromptWithContext]
  cases substituted : substituteWorkflowVariables
      { values with loopUserInput := none, rejectionReason := none, loopPrevOutput := none }
      false template with
  | error error => exact iff_of_true ⟨error, rfl⟩ ⟨error, rfl⟩
  | ok result =>
      refine iff_of_false ?_ nofun
      cases context : values.issueContext with
      | none => simp [bind, Except.bind, pure, Except.pure]
      | some context =>
          cases appended : result.contextSubstituted <;>
            simp [bind, Except.bind, pure, Except.pure, appended]

/-! ## Shell words -/

def nodeOutputFileThreshold : Nat := 32768

def shellQuote (value : String) : String :=
  "'" ++ value.substituted "'" "'\\''" ++ "'"

/-- The text that stands for a value, and the file it was written to if it is
too long to stand inline. -/
structure Replacement where
  text : String
  file : Option (String × String) := none
  deriving DecidableEq, Repr

def joinPath (directory filename : String) : String :=
  if directory = "" then filename
  else if directory.toList.getLast? = some '/' then directory ++ filename
  else directory ++ "/" ++ filename

/-- A quoted value, or a command that reads it from a file; a file that cannot
be written leaves the value inline. -/
def shellQuoteOrFile (canWrite : String → Bool) (value nodeId : String) (field : Option String)
    (outputFileDir : Option String) : Replacement :=
  match outputFileDir with
  | none => { text := shellQuote value }
  | some directory =>
      if nodeOutputFileThreshold < value.utf8ByteSize then
        let filename :=
          match field with
          | some field => nodeId ++ "." ++ field ++ ".nodeoutput"
          | none => nodeId ++ ".nodeoutput"
        let path := joinPath directory filename
        if canWrite path then
          { text := "$(cat " ++ shellQuote path ++ ")", file := some (path, value) }
        else { text := shellQuote value }
      else { text := shellQuote value }

/-! ## References to outputs -/

structure OutputReference where
  nodeId : String
  field : Option String
  deriving DecidableEq, Repr

namespace OutputReference

def parse (text : List Char) : Option (OutputReference × List Char) := do
  let afterDollar ← Text.afterLiteral ['$'] text
  let (nodeId, rest) ← Reference.nodeId afterDollar
  let rest ← Text.afterLiteral ".output".toList rest
  match (Text.afterLiteral ['.'] rest).bind Reference.field with
  | some (field, rest) =>
      return ({ nodeId := String.ofList nodeId, field := some (String.ofList field) }, rest)
  | none => return ({ nodeId := String.ofList nodeId, field := none }, rest)

end OutputReference

inductive Segment
  | literal (character : Char)
  | reference (reference : OutputReference)
  deriving DecidableEq, Repr

namespace Substitution

theorem parse_dollar (text : List Char) :
    OutputReference.parse ('$' :: text) =
      (Reference.nodeId text).bind fun named =>
        (Text.afterLiteral ".output".toList named.2).bind fun rest =>
          match (Text.afterLiteral ['.'] rest).bind Reference.field with
          | some (field, rest) =>
              some ({ nodeId := String.ofList named.1, field := some (String.ofList field) }, rest)
          | none => some ({ nodeId := String.ofList named.1, field := none }, rest) :=
  rfl

/-- The leftmost references of a text that do not overlap, and the characters
between them. -/
def segmentLoop : Nat → List Char → List Segment
  | _, [] => []
  | skip + 1, _ :: rest => segmentLoop skip rest
  | 0, character :: rest =>
      match OutputReference.parse (character :: rest) with
      | some (reference, remaining) =>
          .reference reference :: segmentLoop (rest.length - remaining.length) rest
      | none => .literal character :: segmentLoop 0 rest

def segments (text : String) : List Segment :=
  segmentLoop 0 text.toList

example :
    segments "$a.output.x-$b-1.output" =
      [.reference { nodeId := "a", field := some "x" }, .literal '-',
        .reference { nodeId := "b-1", field := none }] := by
  decide

section References

variable (serde : SerdeJson) (canWrite : String → Bool) (nodeOutputs : NodeOutputs)
  (escapedForBash : Bool) (outputFileDir : Option String)

def replaceValue (nodeId : String) (field : Option String) (value : String) : Replacement :=
  if escapedForBash then shellQuoteOrFile canWrite value nodeId field outputFileDir
  else { text := value }

def emptyReplacement : Replacement :=
  { text := if escapedForBash then "''" else "" }

/-- The text in place of a reference; numbers and Booleans need no quotes. -/
def replaceReference (reference : OutputReference) : Replacement :=
  match nodeOutputs.lookup reference.nodeId with
  | none => emptyReplacement escapedForBash
  | some nodeOutput =>
      match reference.field with
      | none =>
          replaceValue canWrite escapedForBash outputFileDir reference.nodeId none
            nodeOutput.output
      | some field =>
          match resolveNodeOutputField serde nodeOutput reference.nodeId field with
          | .error error => { text := error.message }
          | .ok .empty => emptyReplacement escapedForBash
          | .ok (.value (.string text)) =>
              replaceValue canWrite escapedForBash outputFileDir reference.nodeId
                (some field) text
          | .ok (.value (.number number)) => { text := serde.toString (.number number) }
          | .ok (.value (.bool value)) => { text := if value then "true" else "false" }
          | .ok (.value value) =>
              replaceValue canWrite escapedForBash outputFileDir reference.nodeId
                (some field) (serde.toString value)

def replaceSegment : Segment → Replacement
  | .literal character => { text := String.singleton character }
  | .reference reference =>
      replaceReference serde canWrite nodeOutputs escapedForBash outputFileDir reference

def writtenFiles (prompt : String) : List (String × String) :=
  (segments prompt).filterMap fun segment =>
    (replaceSegment serde canWrite nodeOutputs escapedForBash outputFileDir segment).file

end References

end Substitution

def substituteNodeOutputRefs (serde : SerdeJson) (canWrite : String → Bool)
    (nodeOutputs : NodeOutputs) (escapedForBash : Bool) (outputFileDir : Option String)
    (prompt : String) : String :=
  String.join ((segments prompt).map fun segment =>
    (replaceSegment serde canWrite nodeOutputs escapedForBash outputFileDir segment).text)

def RefersUnresolvably (serde : SerdeJson) (nodeOutputs : NodeOutputs) (text : String) : Prop :=
  ∃ nodeId field nodeOutput error,
    Segment.reference { nodeId, field := some field } ∈ segments text ∧
    nodeOutputs.lookup nodeId = some nodeOutput ∧
    resolveNodeOutputField serde nodeOutput nodeId field = .error error

end HarnessAgent
