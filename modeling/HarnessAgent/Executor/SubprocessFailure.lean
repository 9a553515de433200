import HarnessAgent.Executor.ReferenceFailure
import HarnessAgent.Foundation.TextScan
import HarnessAgent.Foundation.Utf16

/-! # Reports of failed subprocesses

What a node says of its subprocess after it has failed: the diagnostic, cut to its last
code units. The command line, with the body of the script in it, is left out of the
diagnostic by its first line alone.
-/

namespace HarnessAgent

open Text

/-! ## The tail of a diagnostic -/

/-- The tail is cut in code units and decoded again. -/
theorem utf16Tail_eq (text : String) (max : Nat) :
    utf16Tail text max =
      let units := encodeUtf16 text.toList
      if units.length ≤ max then none
      else some (String.ofList (fromUtf16Lossy (units.drop (units.length - max)))) := by
  dsimp only
  rw [length_encodeUtf16, fromUtf16Lossy_drop]
  rfl

/-- The end of a text that is longer than a number of code units: characters of the
text, and no fewer than fit except for one that would be cut. -/
structure IsTail (text : String) (max : Nat) (result : Option String) : Prop where
  eq_none_iff : result = none ↔ utf16Width text.toList ≤ max
  isSuffix : ∀ tail, result = some tail → tail.toList <:+ text.toList
  width_le : ∀ tail, result = some tail → utf16Width tail.toList ≤ max
  omitted_lt : ∀ tail, result = some tail →
    utf16Width text.toList < utf16Width tail.toList + (utf16Width text.toList - max) + 2

theorem utf16Tail_of_short {text : String} {max : Nat} (short : utf16Width text.toList ≤ max) :
    utf16Tail text max = none :=
  if_pos short

theorem utf16Tail_of_long {text : String} {max : Nat} (long : max < utf16Width text.toList) :
    utf16Tail text max =
      some (String.ofList (dropUtf16 (utf16Width text.toList - max) text.toList)) :=
  if_neg (Nat.not_le.mpr long)

/-- A cut falls between two characters, or goes through one. -/
theorem not_cutsPair {before after : List Char} :
    ¬CutsPair (utf16Width before) (before ++ after) := by
  rintro ⟨left, cut, right, split, pair, width⟩
  rcases List.append_eq_append_iff.mp split with
    ⟨middle, leftEq, -⟩ | ⟨middle, beforeEq, rightEq⟩
  · have sum := congrArg utf16Width leftEq
    rw [utf16Width_append] at sum
    omega
  · cases middle with
    | nil =>
        rw [List.append_nil] at beforeEq
        rw [beforeEq] at width
        omega
    | cons first middle =>
        rw [List.cons_append] at rightEq
        cases (List.cons.inj rightEq).1
        rw [beforeEq, utf16Width_append, utf16Width_cons] at width
        omega

/-- The tail of a text is as documented exactly if the cut goes through no pair. -/
theorem isTail_utf16Tail_iff (text : String) (max : Nat) :
    IsTail text max (utf16Tail text max) ↔
      ¬CutsPair (utf16Width text.toList - max) text.toList := by
  by_cases short : utf16Width text.toList ≤ max
  · rw [utf16Tail_of_short short]
    refine iff_of_true ⟨iff_of_true rfl short, nofun, nofun, nofun⟩ ?_
    rintro ⟨before, character, after, -, -, width⟩
    omega
  · have long : max < utf16Width text.toList := Nat.not_le.mp short
    rw [utf16Tail_of_long long]
    rcases dropUtf16_cases (Nat.sub_le (utf16Width text.toList) max) with
      ⟨before, after, split, width, dropped⟩ | ⟨before, cut, after, split, pair, width, dropped⟩
    · have whole : utf16Width text.toList = utf16Width before + utf16Width after := by
        rw [split, utf16Width_append]
      rw [dropped]
      refine iff_of_true ⟨iff_of_false (Option.some_ne_none _) short, ?_, ?_, ?_⟩ ?_
      · intro tail found
        cases found
        rw [String.toList_ofList, split]
        exact List.suffix_append before after
      · intro tail found
        cases found
        rw [String.toList_ofList]
        omega
      · intro tail found
        cases found
        rw [String.toList_ofList]
        omega
      · rw [← width, split]
        exact not_cutsPair
    · refine iff_of_false ?_ (not_not_intro ⟨before, cut, after, split, pair, width⟩)
      intro isTail
      have suffix := isTail.isSuffix _ rfl
      rw [String.toList_ofList, dropped] at suffix
      have behind : cut :: after <:+ text.toList := by
        rw [split]
        exact List.suffix_append before (cut :: after)
      have same : Char.ofNat 0xFFFD :: after = cut :: after :=
        (List.suffix_of_suffix_length_le suffix behind (Nat.le_refl _)).eq_of_length rfl
      rw [← (List.cons.inj same).1] at pair
      exact absurd pair (by decide)

/-- A diagnostic with one code unit too many, whose first character takes two. -/
def longDiagnostic : String :=
  String.ofList ('😀' :: List.replicate 1999 'a')

theorem utf16Tail_longDiagnostic :
    ¬∀ (text : String) (max : Nat), IsTail text max (utf16Tail text max) := by
  intro documented
  have characters : longDiagnostic.toList = '😀' :: List.replicate 1999 'a' :=
    String.toList_ofList
  have width : utf16Width longDiagnostic.toList = subprocessErrorMaxChars + 1 := by
    rw [characters, utf16Width_cons, utf16Width, List.map_replicate, List.sum_replicate]
    rfl
  have cut : utf16Tail longDiagnostic subprocessErrorMaxChars =
      some (String.ofList ('\uFFFD' :: List.replicate 1999 'a')) := by
    rw [utf16Tail_of_long (by rw [width]; exact Nat.lt_succ_self _), width,
      Nat.add_sub_cancel_left, characters]
    rfl
  have suffix := (documented longDiagnostic subprocessErrorMaxChars).isSuffix _ cut
  rw [String.toList_ofList, characters] at suffix
  have same := suffix.eq_of_length rfl
  exact absurd (List.cons.inj same).1 (by decide)

/-! ## The command line in the message -/

theorem behindFirstLine_cons_of_ne (other : character ≠ '\n') (text : List Char) :
    behindFirstLine (character :: text) = behindFirstLine text := by
  have passed : (character != '\n') = true := bne_iff_ne.mpr other
  rw [behindFirstLine, List.dropWhile_cons, if_pos passed, behindFirstLine]

theorem behindFirstLine_append_of_not_mem (oneLine : '\n' ∉ before) (text : List Char) :
    behindFirstLine (before ++ text) = behindFirstLine text := by
  rw [behindFirstLine, behindFirstLine, List.dropWhile_append_of_pos]
  intro character member
  exact bne_iff_ne.mpr fun newline => oneLine (newline ▸ member)

theorem blank_behindFirstLine (blank : Blank text) : Blank (behindFirstLine text) := by
  intro character member
  exact blank character ((List.dropWhile_sublist _).subset (List.mem_of_mem_drop member))

theorem trim_behindFirstLine_append_of_blank (blank : Blank after) (text : List Char) :
    trim (behindFirstLine (text ++ after)) = trim (behindFirstLine text) := by
  induction text with
  | nil => exact @trim_append_of_blank [] _ (blank_behindFirstLine blank)
  | cons character rest induction =>
      by_cases newline : character = '\n'
      · subst newline
        exact trim_append_of_blank blank
      · rw [List.cons_append, behindFirstLine_cons_of_ne newline,
          behindFirstLine_cons_of_ne newline, induction]

theorem trim_behindFirstLine_trimEnd (text : List Char) :
    trim (behindFirstLine (trimEnd text)) = trim (behindFirstLine text) := by
  have ends : trimEnd text ++ text.rtakeWhile isWhitespace = text :=
    List.rdropWhile_append_rtakeWhile
  have blank : Blank (text.rtakeWhile isWhitespace) :=
    fun character member => List.mem_rtakeWhile_imp member
  rw [← trim_behindFirstLine_append_of_blank blank (trimEnd text), ends]

theorem trimEnd_append_of_solid (solid : isWhitespace last = false) (before after : List Char) :
    trimEnd (before ++ last :: after) = before ++ last :: trimEnd after := by
  by_cases blank : Blank after
  · have empty : trimEnd after = [] := List.rdropWhile_eq_nil_iff.mpr blank
    rw [empty, ← List.singleton_append, ← List.append_assoc, trimEnd_append_of_blank blank]
    exact List.rdropWhile_concat_neg _ _ _ (ne_true_of_eq_false solid)
  · have shown : ¬Blank (last :: after) :=
      fun all => blank fun character member => all character (List.mem_cons_of_mem _ member)
    rw [trimEnd_append_of_not_blank shown, ← List.singleton_append,
      trimEnd_append_of_not_blank blank, List.singleton_append]

/-! ## The report -/

theorem trim_commandFailed (commandLine : String) :
    trim ("Command failed: " ++ commandLine).toList =
      "Command failed:".toList ++ trimEnd (' ' :: commandLine.toList) := by
  have message : ("Command failed: " ++ commandLine).toList =
      "Command failed".toList ++ ':' :: ' ' :: commandLine.toList := by
    rw [String.toList_append]
    rfl
  have starts : trimStart ("Command failed".toList ++ ':' :: ' ' :: commandLine.toList) =
      "Command failed".toList ++ ':' :: ' ' :: commandLine.toList :=
    List.dropWhile_cons_of_neg (by decide)
  rw [message, trim, starts, trimEnd_append_of_solid rfl]
  rfl

theorem trim_behindFirstLine_commandFailed (commandLine : String) :
    trim (behindFirstLine (trim ("Command failed: " ++ commandLine).toList)) =
      trim (behindFirstLine commandLine.toList) := by
  rw [trim_commandFailed, behindFirstLine_append_of_not_mem (by decide),
    trim_behindFirstLine_trimEnd, behindFirstLine_cons_of_ne (by decide)]

def SubprocessCall.commandLine (call : SubprocessCall) : String :=
  " ".intercalate (call.command :: call.arguments)

/-- What a command line shows of itself when it fails without a word. -/
def shownOf (commandLine : String) : String :=
  String.ofList (trim (behindFirstLine commandLine.toList))

theorem diagnosticOf_commandFailed (commandLine stderr : String) (code : Option String) :
    diagnosticOf
        { message := some ("Command failed: " ++ commandLine), stderr := some stderr, code } =
      if stderr.trimmed ≠ "" then stderr.trimmed
      else if shownOf commandLine ≠ "" then shownOf commandLine
      else "no diagnostic output" := by
  have trimmed : ("Command failed: " ++ commandLine).trimmed.toList =
      trim ("Command failed: " ++ commandLine).toList := String.toList_ofList
  have isPrefixed : "Command failed:".toList.isPrefixOf
      ("Command failed: " ++ commandLine).trimmed.toList = true := by
    rw [trimmed, trim_commandFailed]
    exact List.isPrefixOf_iff_prefix.mpr (List.prefix_append _ _)
  have behind : (String.ofList (behindFirstLine
      ("Command failed: " ++ commandLine).trimmed.toList)).trimmed = shownOf commandLine := by
    rw [trimmed, String.trimmed, shownOf, String.toList_ofList,
      trim_behindFirstLine_commandFailed]
  simp only [diagnosticOf, Option.getD_some, isPrefixed, if_true, behind]

/-! ## What a report is determined by -/

def noDiagnostic : String := "no diagnostic output"

def reportOf (label : String) (exitCode : Option Int) (stderr : String) : String :=
  failureText label (exitCode.map toString)
    (if stderr.trimmed ≠ "" then stderr.trimmed else noDiagnostic)

theorem truncated_noDiagnostic : truncated noDiagnostic = noDiagnostic := by
  have short : utf16Tail noDiagnostic subprocessErrorMaxChars = none :=
    utf16Tail_of_short (by decide)
  rw [truncated, short]

theorem truncated_eq_noDiagnostic_iff (diagnostic : String) :
    truncated diagnostic = noDiagnostic ↔ diagnostic = noDiagnostic := by
  constructor
  · intro same
    rw [truncated] at same
    split at same
    · next tail _ =>
        have newline : '\n' ∈ (tail ++ "\n…[truncated]").toList := by
          rw [String.toList_append]
          exact List.mem_append_right _ (by decide)
        rw [same] at newline
        exact absurd newline (by decide)
    · exact same
  · rintro rfl
    exact truncated_noDiagnostic

theorem failureText_inj {label : String} {code : Option String} {left right : String} :
    failureText label code left = failureText label code right ↔
      truncated left = truncated right := by
  delta failureText
  exact String.append_right_inj _

theorem subprocessOutput_failed_iff (label executable : String) (call : SubprocessCall)
    (exitCode : Option Int) (stderr : String) :
    subprocessOutput label executable call (.failed exitCode stderr) =
        .failure (reportOf label exitCode stderr) ↔
      stderr.trimmed ≠ "" ∨ shownOf call.commandLine = "" ∨
        shownOf call.commandLine = noDiagnostic := by
  have reported : subprocessOutput label executable call (.failed exitCode stderr) =
      .failure (failureText label (exitCode.map toString)
        (diagnosticOf
          { message := some ("Command failed: " ++ call.commandLine), stderr := some stderr,
            code := exitCode.map toString })) :=
    congrArg NodeOutput.failure (formatSubprocessFailure_eq _ label)
  have injective : ∀ {left right : String},
      NodeOutput.failure left = NodeOutput.failure right ↔ left = right := by
    intro left right
    constructor
    · intro same
      cases same
      rfl
    · rintro rfl
      rfl
  rw [reported, injective, reportOf, failureText_inj, diagnosticOf_commandFailed]
  by_cases spoken : stderr.trimmed ≠ ""
  · rw [if_pos spoken, if_pos spoken]
    exact iff_of_true rfl (.inl spoken)
  · rw [if_neg spoken, if_neg spoken, truncated_noDiagnostic, truncated_eq_noDiagnostic_iff]
    by_cases shown : shownOf call.commandLine ≠ ""
    · rw [if_pos shown]
      exact ⟨fun same => .inr (.inr same), fun cases => (cases.resolve_left spoken).resolve_left shown⟩
    · rw [if_neg shown]
      exact iff_of_true rfl (.inr (.inl (not_not.mp shown)))

/-! ## Nodes with a subprocess -/

namespace NodeEnvironment

variable (environment : NodeEnvironment)

def bashCall (node : BashNode) (finalScript : String) : SubprocessCall where
  command := "bash"
  arguments := ["-c", finalScript]
  timeoutMs := subprocessTimeout node.timeout
  envOverlay := environment.overlay
    ([("ARTIFACTS_DIR", environment.artifactsDir), ("LOG_DIR", environment.logDir),
      ("BASE_BRANCH", environment.baseBranch), ("USER_MESSAGE", environment.run.userMessage),
      ("ARGUMENTS", environment.run.userMessage), ("LOOP_USER_INPUT", ""),
      ("LOOP_PREV_OUTPUT", ""), ("REJECTION_REASON", "")] ++ environment.contextOverlay)

def scriptCall (node : ScriptNode) (command : String) (arguments : List String) :
    SubprocessCall where
  command := command
  arguments := arguments
  timeoutMs := subprocessTimeout node.timeout
  envOverlay := environment.overlay
    [("ARTIFACTS_DIR", environment.artifactsDir), ("LOG_DIR", environment.logDir),
      ("BASE_BRANCH", environment.baseBranch)]

/-- A node gets so far as to run a subprocess, and names itself so in its errors. -/
inductive Calls (nodeOutputs : NodeOutputs) : DagNode → String → SubprocessCall → Prop
  | bash {node : BashNode} {substituted : SubstitutionResult}
      (substitutes : substituteWorkflowVariables environment.workflowVariables true node.bash =
        .ok substituted) :
      Calls nodeOutputs (.bash node) ("Bash node '" ++ node.base.id ++ "'")
        (environment.bashCall node (environment.substituteForBash nodeOutputs substituted.prompt))
  | script {node : ScriptNode} {substituted : SubstitutionResult} {command : String}
      {arguments : List String}
      (substitutes : substituteWorkflowVariables environment.workflowVariables false node.script =
        .ok substituted)
      (found : environment.scriptCommand node
        (environment.substitutePlain nodeOutputs substituted.prompt) = .ok (command, arguments)) :
      Calls nodeOutputs (.script node) ("Script node '" ++ node.base.id ++ "'")
        (environment.scriptCall node command arguments)

variable {environment}

theorem Calls.output_eq (calls : Calls environment context.allOutputs node label call) :
    ∃ executable, (executeNode environment node context).result.output =
      subprocessOutput label executable call (environment.runSubprocess call) := by
  cases calls with
  | bash substitutes =>
      refine ⟨"bash", ?_⟩
      rw [executeNode, executeBashNode, substitutes]
      rfl
  | @script node substituted command arguments substitutes found =>
      refine ⟨"'" ++ command ++ "'", ?_⟩
      rw [executeNode, executeScriptNode, substitutes]
      dsimp only
      rw [found]
      rfl

/-- The error of a failed subprocess is told by its exit code and `stderr` alone exactly
if `stderr` says something or the command line has nothing to show. -/
theorem executeNode_reportOf_iff {context : TaskContext} {node : DagNode} {label : String}
    {call : SubprocessCall} (calls : Calls environment context.allOutputs node label call)
    {exitCode : Option Int} {stderr : String}
    (failed : environment.runSubprocess call = .failed exitCode stderr) :
    (executeNode environment node context).result.output =
        .failure (reportOf label exitCode stderr) ↔
      stderr.trimmed ≠ "" ∨ shownOf call.commandLine = "" ∨
        shownOf call.commandLine = noDiagnostic := by
  rcases calls.output_eq with ⟨executable, output⟩
  rw [output, failed]
  exact subprocessOutput_failed_iff label executable call exitCode stderr

end NodeEnvironment

def silentEnvironment : NodeEnvironment :=
  { NodeEnvironment.quietEnvironment with runSubprocess := fun _ => .failed (some 1) "" }

def deployNode (script : String) : BashNode where
  base := { id := "deploy", dependsOn := [] }
  bash := script

theorem executeNode_reportOf_oneLine :
    (executeNode silentEnvironment (.bash (deployNode "exit 1"))
        NodeEnvironment.helloContext).result.output =
      .failure (reportOf "Bash node 'deploy'" (some 1) "") := by
  have substitutes : substituteWorkflowVariables silentEnvironment.workflowVariables true
      "exit 1" = .ok ⟨"exit 1", false⟩ := by decide
  have calls := @NodeEnvironment.Calls.bash silentEnvironment
    NodeEnvironment.helloContext.allOutputs (deployNode "exit 1") _ substitutes
  exact (NodeEnvironment.executeNode_reportOf_iff calls rfl).mpr (.inr (.inl (by decide)))

/-- Two scripts that fail in the same way are told apart by the error. -/
theorem executeNode_shows_script :
    ¬∀ (environment : NodeEnvironment) (context : TaskContext) (first second : BashNode)
      (exitCode : Option Int) (stderr : String), first.base = second.base →
      (∀ call, environment.runSubprocess call = .failed exitCode stderr) →
      (executeNode environment (.bash first) context).result.output =
        (executeNode environment (.bash second) context).result.output := by
  intro determined
  have same := determined silentEnvironment NodeEnvironment.helloContext (deployNode "exit 1")
    (deployNode "cd ~\ngrep -q hunter2 f") (some 1) "" rfl fun _ => rfl
  exact absurd same (by decide +kernel)

end HarnessAgent
