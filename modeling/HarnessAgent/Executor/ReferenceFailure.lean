import HarnessAgent.Executor.NodeExecution

/-! # Unresolvable references in the texts of nodes

The text of a node is what it substitutes the outputs of other nodes into. A
reference that cannot be resolved does not stop a node: it fails without using
its text only for reasons that the reference has no part in.
-/

namespace HarnessAgent

namespace Execution

def FailedUnused (execution : Execution) : Prop :=
  execution.result.output.state = .failed ∧ ∀ use ∈ execution.uses, use.executes = false

def Executes (execution : Execution) : Prop :=
  ∃ use ∈ execution.uses, use.executes = true

theorem failedUnused_fail (error : String) : (fail error).FailedUnused :=
  ⟨rfl, nofun⟩

theorem Executes.not_failedUnused {execution : Execution} (executes : execution.Executes) :
    ¬execution.FailedUnused := by
  rintro ⟨_, unused⟩
  rcases executes with ⟨use, member, used⟩
  rw [unused use member] at used
  cases used

end Execution

namespace NodeEnvironment

open Execution

variable (environment : NodeEnvironment)

/-! ## Conditions on the inputs of a node -/

def nodeText : DagNode → Option String
  | .bash node => some node.bash
  | .script node => some node.script
  | .prompt node => some node.prompt
  | .command node => (environment.loadCommandPrompt node.command).toOption
  | .loop node => some node.loopConfig.prompt
  | .cancel node => some node.cancel
  | .approval node =>
      match environment.rejectionReason node, node.approval.onReject with
      | some _, some onReject =>
          if environment.attemptsExhausted onReject then none else some onReject.prompt
      | _, _ => none

def BaseBranchMissing (text : String) : Prop :=
  environment.baseBranch = "" ∧ text.mentions "$BASE_BRANCH" = true

def NamedScriptMissing (nodeOutputs : NodeOutputs) (script : String) : Prop :=
  ∃ substituted,
    substituteWorkflowVariables environment.workflowVariables false script = .ok substituted ∧
    let name := environment.substitutePlain nodeOutputs substituted.prompt
    isInlineScript name = false ∧
      ∀ scripts, environment.discoverScripts = .ok scripts → scripts name = none

def ProviderFails (node : DagNode) (wrong : String → Prop) : Prop :=
  ∀ provider, environment.resolveProvider node = .ok provider → wrong provider

def SessionUnsupported (node : DagNode) (provider : String) : Prop :=
  environment.persistsSession node = true ∧ environment.sessionResume provider = false

def QueryFails (provider text : String) : Prop :=
  environment.BaseBranchMissing text ∨ environment.isRegistered provider = false

def StatusStops (iteration : Nat) : Prop :=
  ∀ status, environment.runStatus iteration = .ok status →
    shouldContinueStreamingForStatus status = false

/-- The prompt of a rejection names the missing base branch, before or after the
outputs of other nodes are in it, or the provider of its node fails. -/
def RejectFails (node : ApprovalNode) (onReject : ApprovalOnReject) (reason : String)
    (nodeOutputs : NodeOutputs) : Prop :=
  ∀ substituted,
    substituteWorkflowVariables
      { environment.workflowVariables with rejectionReason := some reason } false
      onReject.prompt = .ok substituted →
    let prompt := environment.substitutePlain nodeOutputs substituted.prompt
    environment.ProviderFails (rejectNode node prompt) fun provider =>
      environment.QueryFails provider prompt

def FailsBeforeUse (nodeOutputs : NodeOutputs) (text : String) : DagNode → Prop
  | .bash _ => environment.BaseBranchMissing text
  | .script _ =>
      environment.BaseBranchMissing text ∨ environment.NamedScriptMissing nodeOutputs text
  | .cancel _ => False
  | .loop node =>
      environment.ProviderFails (.loop node) fun provider =>
        environment.isRegistered provider = false ∨
        node.loopConfig.maxIterations < environment.startIteration node ∨
        environment.StatusStops (environment.startIteration node) ∨
        environment.BaseBranchMissing text
  | .approval node =>
      ∃ reason onReject, environment.rejectionReason node = some reason ∧
        node.approval.onReject = some onReject ∧
        environment.RejectFails node onReject reason nodeOutputs
  | node =>
      environment.ProviderFails node fun provider =>
        environment.SessionUnsupported node provider ∨ environment.QueryFails provider text

/-! ## One executor after the other -/

variable {environment}

theorem providerFails_of_error {wrong : String → Prop}
    (unresolved : environment.resolveProvider node = .error error) :
    environment.ProviderFails node wrong := by
  intro provider found
  rw [unresolved] at found
  cases found

theorem providerFails_of_ok {wrong : String → Prop}
    (resolved : environment.resolveProvider node = .ok provider) :
    environment.ProviderFails node wrong ↔ wrong provider := by
  constructor
  · intro fails
    exact fails provider resolved
  · intro fails other found
    rw [resolved] at found
    cases found
    exact fails

theorem variables_error_iff {values : WorkflowVariables} {shellSafe : Bool} {text : String}
    (sameBranch : values.baseBranch = environment.baseBranch) :
    (∃ error, substituteWorkflowVariables values shellSafe text = .error error) ↔
      environment.BaseBranchMissing text := by
  rw [substituteWorkflowVariables_error_iff, sameBranch, BaseBranchMissing]

theorem executeBashNode_failedUnused_iff {node : BashNode} {nodeOutputs : NodeOutputs} :
    (environment.executeBashNode node nodeOutputs).FailedUnused ↔
      environment.BaseBranchMissing node.bash := by
  rw [← @variables_error_iff environment environment.workflowVariables true node.bash rfl,
    executeBashNode]
  cases substituted :
      substituteWorkflowVariables environment.workflowVariables true node.bash with
  | error error => exact iff_of_true (failedUnused_fail _) ⟨error, rfl⟩
  | ok result =>
      refine iff_of_false (Executes.not_failedUnused ?_) nofun
      exact ⟨_, List.mem_append_right _ (List.mem_singleton_self _), rfl⟩

theorem scriptCommand_error_iff {node : ScriptNode} {script : String} :
    (∃ error, environment.scriptCommand node script = .error error) ↔
      isInlineScript script = false ∧
        ∀ scripts, environment.discoverScripts = .ok scripts → scripts script = none := by
  rw [scriptCommand]
  cases inline : isInlineScript script with
  | true => cases node.runtime <;> simp
  | false =>
      cases discovered : environment.discoverScripts with
      | error error => simp
      | ok scripts =>
          cases found : scripts script with
          | none => simp [found]
          | some definition =>
              cases runtime : definition.runtime <;> simp [found, runtime]

theorem executeScriptNode_failedUnused_iff {node : ScriptNode} {nodeOutputs : NodeOutputs} :
    (environment.executeScriptNode node nodeOutputs).FailedUnused ↔
      environment.BaseBranchMissing node.script ∨
        environment.NamedScriptMissing nodeOutputs node.script := by
  rw [← @variables_error_iff environment environment.workflowVariables false node.script rfl,
    executeScriptNode, NamedScriptMissing]
  cases substituted :
      substituteWorkflowVariables environment.workflowVariables false node.script with
  | error error => exact iff_of_true (failedUnused_fail _) (.inl ⟨error, rfl⟩)
  | ok result =>
      have missing := @scriptCommand_error_iff environment node
        (environment.substitutePlain nodeOutputs result.prompt)
      cases command : environment.scriptCommand node
          (environment.substitutePlain nodeOutputs result.prompt) with
      | error error =>
          refine iff_of_true ?_ (.inr ⟨result, rfl, missing.mp ⟨error, command⟩⟩)
          simpa only [command] using failedUnused_fail error
      | ok call =>
          refine iff_of_false (Executes.not_failedUnused ?_) ?_
          · simp only [command]
            exact ⟨_, List.mem_singleton_self _, rfl⟩
          · rintro (⟨error, failed⟩ | ⟨other, same, named⟩)
            · cases failed
            · cases same
              rcases missing.mpr named with ⟨error, failed⟩
              rw [command] at failed
              cases failed

theorem executeCancelNode_executes {node : CancelNode} {nodeOutputs : NodeOutputs} :
    (environment.executeCancelNode node nodeOutputs).Executes :=
  ⟨_, List.mem_singleton_self _, rfl⟩

section Query

variable {node : DagNode} {provider text : String} {nodeOutputs : NodeOutputs}
  {session : Option String}

theorem executeNodeInternal_failedUnused (raw : environment.rawPrompt node = .ok text)
    (fails : environment.QueryFails provider text) (attempt : Nat) :
    (environment.executeNodeInternal node provider nodeOutputs session attempt).FailedUnused := by
  simp only [executeNodeInternal, raw]
  cases built : buildPromptWithContext environment.workflowVariables text with
  | error error => exact failedUnused_fail _
  | ok prompt =>
      rcases fails with missing | unregistered
      · rcases (@buildPromptWithContext_error_iff environment.workflowVariables text).mpr
          missing with ⟨error, failed⟩
        rw [built] at failed
        cases failed
      · simp only [unregistered, Bool.false_eq_true, if_false]
        exact failedUnused_fail _

theorem executeNodeInternal_executes (raw : environment.rawPrompt node = .ok text)
    (queried : ¬environment.QueryFails provider text) (attempt : Nat) :
    (environment.executeNodeInternal node provider nodeOutputs session attempt).Executes := by
  simp only [QueryFails, not_or, Bool.not_eq_false] at queried
  simp only [executeNodeInternal, raw]
  cases built : buildPromptWithContext environment.workflowVariables text with
  | error error => exact absurd (buildPromptWithContext_error_iff.mp ⟨error, built⟩) queried.1
  | ok prompt =>
      simp only [queried.2, if_true]
      exact ⟨_, List.mem_cons_self, rfl⟩

theorem retryLoop_failedUnused {config : RetryConfig}
    (unused : ∀ attempt, (execute attempt).FailedUnused) (attempt remaining : Nat) :
    (retryLoop config execute attempt remaining).FailedUnused := by
  refine retryLoop_rule unused ?_ attempt remaining
  intro attempt later kept
  refine ⟨kept.1, fun use member => ?_⟩
  rcases List.mem_append.mp member with here | after
  · exact (unused attempt).2 use here
  · exact kept.2 use after

/-- What the first attempt acts upon is not undone by a later one. -/
theorem retryLoop_executes {config : RetryConfig} (executes : (execute attempt).Executes)
    (remaining : Nat) : (retryLoop config execute attempt remaining).Executes := by
  cases remaining with
  | zero => exact executes
  | succ remaining =>
      rw [retryLoop]
      split
      · split
        · rcases executes with ⟨use, member, used⟩
          exact ⟨use, List.mem_append_left _ member, used⟩
        · exact executes
      · exact executes

theorem executeAiNode_failedUnused_iff {context : TaskContext}
    (raw : environment.rawPrompt node = .ok text) :
    (environment.executeAiNode node context).FailedUnused ↔
      environment.ProviderFails node fun provider =>
        environment.SessionUnsupported node provider ∨ environment.QueryFails provider text := by
  rw [executeAiNode]
  cases resolved : environment.resolveProvider node with
  | error error =>
      exact iff_of_true (failedUnused_fail _) (providerFails_of_error resolved)
  | ok provider =>
      have attempts : ∀ session (config : RetryConfig),
          (retryLoop config (environment.executeNodeInternal node provider context.allOutputs
            session) 0 config.maxRetries).FailedUnused ↔
            environment.QueryFails provider text := by
        intro session config
        by_cases fails : environment.QueryFails provider text
        · exact iff_of_true
            (retryLoop_failedUnused (executeNodeInternal_failedUnused raw fails) 0 _) fails
        · exact iff_of_false
            (retryLoop_executes (executeNodeInternal_executes raw fails 0) _).not_failedUnused
            fails
      rw [providerFails_of_ok resolved, SessionUnsupported]
      cases persists : environment.persistsSession node with
      | false => simp [attempts]
      | true =>
          cases supported : environment.sessionResume provider with
          | false => simp [supported, failedUnused_fail]
          | true => simp [supported, attempts]

end Query

/-! ## Loops -/

def LoopStep.uses : LoopStep → List Use
  | .ends execution => execution.uses
  | .continues state => state.uses

section Loop

variable {frame : LoopFrame} {iteration : Nat} {state : LoopState}

theorem loopGate_uses {node : LoopNode} {message : String} :
    state.uses ⊆ (environment.loopGate node message iteration state).uses := by
  rw [loopGate]
  split
  · split
    · exact List.Subset.refl _
    · exact List.subset_append_left _ _
  · exact List.Subset.refl _

theorem finishIteration_uses {prevOutput : String} {pass : LoopPass} {after : LoopState} :
    after.uses ⊆
      (environment.finishIteration frame iteration prevOutput pass after).uses := by
  rw [finishIteration]
  split
  · exact List.Subset.refl _
  · split
    · exact List.Subset.refl _
    · dsimp only
      split
      · exact List.subset_append_left _ _
      · split
        · intro use member
          apply loopGate_uses
          exact List.mem_append_left _ member
        · exact List.subset_append_left _ _

theorem loopStep_uses {iteration : Nat} {state : LoopState} :
    state.uses ⊆ (environment.loopStep frame iteration state).uses := by
  rw [loopStep]
  split
  · exact List.Subset.refl _
  · intro use member
    apply finishIteration_uses
    exact List.mem_append_left _ member

variable {remaining : Nat}

/-- What has been acted upon stays recorded over all iterations. -/
theorem loopIterations_uses :
    state.uses ⊆ (environment.loopIterations frame remaining iteration state).uses := by
  induction remaining generalizing iteration state with
  | zero => exact List.Subset.refl _
  | succ remaining induction =>
      apply List.Subset.trans (@loopStep_uses environment frame iteration state)
      rw [loopIterations]
      cases environment.loopStep frame iteration state with
      | ends execution => exact List.Subset.refl _
      | continues later => exact induction

theorem loopStep_uses_subset :
    (environment.loopStep frame iteration state).uses ⊆
      (environment.loopIterations frame (remaining + 1) iteration state).uses := by
  rw [loopIterations]
  cases environment.loopStep frame iteration state with
  | ends execution => exact List.Subset.refl _
  | continues later => exact loopIterations_uses

theorem loopPrompt_error_iff {iteration : Nat} {state : LoopState} :
    (∃ failure, environment.loopPrompt frame iteration state = .error failure) ↔
      environment.StatusStops iteration ∨
        environment.BaseBranchMissing frame.node.loopConfig.prompt := by
  rw [loopPrompt, StatusStops]
  cases read : environment.runStatus iteration with
  | error error => exact iff_of_true ⟨_, rfl⟩ (.inl nofun)
  | ok status =>
      cases continues : shouldContinueStreamingForStatus status with
      | false =>
          refine iff_of_true ?_ (.inl ?_)
          · simp [continues]
          · rintro other ⟨⟩
            exact continues
      | true =>
          have missing := @variables_error_iff environment
            { environment.workflowVariables with
              loopUserInput := some (frame.userInput iteration),
              loopPrevOutput := some (if iteration = frame.start then "" else state.lastOutput) }
            false frame.node.loopConfig.prompt rfl
          have continued : ¬∀ other, (.ok status : Except String _) = .ok other →
              shouldContinueStreamingForStatus other = false := by
            intro stops
            rw [stops status rfl] at continues
            cases continues
          rw [← missing]
          simp only [continues, if_true]
          split
          · rename_i error failed
            exact iff_of_true ⟨_, rfl⟩ (.inr ⟨error, failed⟩)
          · rename_i substituted
            refine iff_of_false nofun ?_
            rintro (stops | ⟨error, failed⟩)
            · exact continued stops
            · rw [substituted] at failed
              cases failed

theorem loopIterations_failedUnused_iff (unused : state.uses = []) :
    (environment.loopIterations frame remaining iteration state).FailedUnused ↔
      remaining = 0 ∨ environment.StatusStops iteration ∨
        environment.BaseBranchMissing frame.node.loopConfig.prompt := by
  cases remaining with
  | zero =>
      refine iff_of_true ⟨rfl, fun use member => ?_⟩ (.inl rfl)
      rw [loopIterations, unused] at member
      cases member
  | succ remaining =>
      rw [← @loopPrompt_error_iff environment frame iteration state]
      cases prompted : environment.loopPrompt frame iteration state with
      | error failure =>
          refine iff_of_true ?_ (.inr ⟨failure, rfl⟩)
          rw [loopIterations, loopStep, prompted]
          refine ⟨rfl, fun use member => ?_⟩
          rw [show (LoopState.fail state failure.1 failure.2).uses = [] from unused] at member
          cases member
      | ok prompt =>
          have queried : .query prompt ∈ (environment.loopStep frame iteration state).uses := by
            rw [loopStep, prompted]
            exact finishIteration_uses (List.mem_append_right _ (List.mem_singleton_self _))
          refine iff_of_false (Executes.not_failedUnused ?_) (by simp)
          exact ⟨.query prompt, loopStep_uses_subset queried, rfl⟩

theorem executeLoopNode_failedUnused_iff {node : LoopNode} {nodeOutputs : NodeOutputs} :
    (environment.executeLoopNode node nodeOutputs).FailedUnused ↔
      environment.ProviderFails (.loop node) fun provider =>
        environment.isRegistered provider = false ∨
        node.loopConfig.maxIterations < environment.startIteration node ∨
        environment.StatusStops (environment.startIteration node) ∨
        environment.BaseBranchMissing node.loopConfig.prompt := by
  rw [executeLoopNode]
  cases resolved : environment.resolveProvider (.loop node) with
  | error error => exact iff_of_true (failedUnused_fail _) (providerFails_of_error resolved)
  | ok provider =>
      rw [providerFails_of_ok resolved]
      cases registered : environment.isRegistered provider with
      | false =>
          refine iff_of_true ?_ (.inl rfl)
          simp only [registered, Bool.false_eq_true, if_false]
          exact failedUnused_fail _
      | true =>
          have noneLeft : node.loopConfig.maxIterations + 1 - environment.startIteration node = 0 ↔
              node.loopConfig.maxIterations < environment.startIteration node := by omega
          simp only [registered, if_true, Bool.true_eq_false, false_or]
          rw [loopIterations_failedUnused_iff rfl, noneLeft]
          rfl

end Loop

/-! ## Rejections -/

theorem approvalGate_executes {node : ApprovalNode} {nodeOutputs : NodeOutputs}
    {uses : List Use} (executes : ∃ use ∈ uses, use.executes = true) :
    (environment.approvalGate node nodeOutputs uses).Executes := by
  rw [approvalGate]
  rcases executes with ⟨use, member, used⟩
  split
  · exact ⟨use, member, used⟩
  · exact ⟨use, List.mem_append_left _ member, used⟩

theorem executeReject_failedUnused_iff {node : ApprovalNode} {onReject : ApprovalOnReject}
    {reason : String} {nodeOutputs : NodeOutputs} :
    (environment.executeReject node onReject reason nodeOutputs).FailedUnused ↔
      environment.RejectFails node onReject reason nodeOutputs := by
  rw [executeReject, RejectFails]
  cases substituted : substituteWorkflowVariables
      { environment.workflowVariables with rejectionReason := some reason } false
      onReject.prompt with
  | error error => exact iff_of_true (failedUnused_fail _) nofun
  | ok result =>
      simp only [Except.ok.injEq, forall_eq']
      cases resolved : environment.resolveProvider (rejectNode node
          (environment.substitutePlain nodeOutputs result.prompt)) with
      | error error => exact iff_of_true (failedUnused_fail _) (providerFails_of_error resolved)
      | ok provider =>
          rw [providerFails_of_ok resolved]
          dsimp only
          have raw : environment.rawPrompt (rejectNode node
              (environment.substitutePlain nodeOutputs result.prompt)) =
              .ok (environment.substitutePlain nodeOutputs result.prompt) := rfl
          by_cases fails : environment.QueryFails provider
              (environment.substitutePlain nodeOutputs result.prompt)
          · have unused := @executeNodeInternal_failedUnused environment _ provider _ nodeOutputs
              none raw fails 0
            refine iff_of_true ?_ fails
            rw [if_pos unused.1]
            exact unused
          · have executes := @executeNodeInternal_executes environment _ provider _ nodeOutputs
              none raw fails 0
            refine iff_of_false (Executes.not_failedUnused ?_) fails
            split
            · exact executes
            · exact approvalGate_executes executes

end NodeEnvironment

open NodeEnvironment

/-- A node whose text has an unresolvable reference fails without using the text
exactly when it would do so without the reference. -/
theorem unresolvableReference_failedUnused_iff (environment : NodeEnvironment) (node : DagNode)
    (context : TaskContext) {text : String} (hasText : environment.nodeText node = some text) :
    RefersUnresolvably environment.serde context.allOutputs text →
    ((executeNode environment node context).FailedUnused ↔
      environment.FailsBeforeUse context.allOutputs text node) := by
  intro _
  cases node with
  | bash node =>
      cases hasText
      exact executeBashNode_failedUnused_iff
  | script node =>
      cases hasText
      exact executeScriptNode_failedUnused_iff
  | cancel node => exact iff_of_false executeCancelNode_executes.not_failedUnused nofun
  | loop node =>
      cases hasText
      exact executeLoopNode_failedUnused_iff
  | prompt node =>
      cases hasText
      exact executeAiNode_failedUnused_iff rfl
  | command node =>
      have loaded : environment.rawPrompt (.command node) = .ok text := by
        rw [nodeText] at hasText
        rw [rawPrompt]
        cases load : environment.loadCommandPrompt node.command with
        | error error =>
            rw [load] at hasText
            cases hasText
        | ok content =>
            rw [load] at hasText
            cases hasText
            rfl
      exact executeAiNode_failedUnused_iff loaded
  | approval node =>
      rw [executeNode, executeApprovalNode, FailsBeforeUse]
      rw [nodeText] at hasText
      cases rejected : environment.rejectionReason node with
      | none =>
          rw [rejected] at hasText
          cases hasText
      | some reason =>
          cases configured : node.approval.onReject with
          | none =>
              rw [rejected, configured] at hasText
              cases hasText
          | some onReject =>
              simp only [rejected, configured] at hasText
              split at hasText
              · cases hasText
              · rename_i attemptsLeft
                simp only [attemptsLeft, Option.some.injEq, exists_and_left, exists_eq_left']
                exact executeReject_failedUnused_iff

namespace NodeEnvironment

/-- Every subprocess succeeds without output; nothing else is available. -/
def quietEnvironment : NodeEnvironment where
  serde := { toString := fun _ => "", fromStr := fun _ => none }
  canWrite := fun _ => true
  run :=
    { id := "run", workflowName := "w", conversationId := "c", status := .running,
      userMessage := "", metadata := [], startedAt := 0 }
  artifactsDir := "/artifacts"
  logDir := "/logs"
  baseBranch := ""
  docsDir := ""
  issueContext := none
  envVars := ∅
  persistSessions := false
  runSubprocess := fun _ => .success "" ""
  discoverScripts := .error "unavailable"
  loadCommandPrompt := fun _ => .error "unavailable"
  resolveProvider := fun _ => .error "unavailable"
  isRegistered := fun _ => false
  sessionResume := fun _ => false
  persistedSession := fun _ _ => none
  stream := fun _ _ _ _ => { result := { output := .failure "unavailable" } }
  loopPass := fun _ _ _ => {}
  detectCompletionSignal := fun _ _ => false
  runStatus := fun _ => .ok (some .running)
  sendGateMessage := false
  pauseRun := fun _ => .error "unavailable"

def helloContext : TaskContext where
  allOutputs := (∅ : NodeOutputs).insert "a" (.completed "hello" none none none)
  resumeSession := none
  isParallel := false

def bashNode (script : String) : DagNode :=
  .bash { base := { id := "b", dependsOn := ["a"] }, bash := script }

end NodeEnvironment

theorem unresolvableReference_failedUnused_iff_baseBranch :
    (executeNode quietEnvironment (bashNode "git diff $BASE_BRANCH; $a.output.x")
      helloContext).FailedUnused :=
  (unresolvableReference_failedUnused_iff quietEnvironment
    (bashNode "git diff $BASE_BRANCH; $a.output.x") helloContext rfl
    ⟨"a", "x", .completed "hello" none none none,
      { nodeId := "a", field := "x", reason := .unparseable },
      by decide, by decide, by decide⟩).mpr ⟨rfl, by decide⟩

namespace NodeEnvironment

def printScript : String :=
  "echo \"$a.output.x\""

def splicedScript : String :=
  "echo \"'$a.output.x' references field 'x', but node 'a's output is not a JSON object, so " ++
    "the field cannot be read. Emit JSON containing 'x', or reference '$a.output' (whole text) " ++
    "instead.\""

/-- What bash prints then. It takes `$a` for a variable, which is not set. -/
def printedError : String :=
  "'.output.x' references field 'x', but node 'a's output is not a JSON object, so the field " ++
    "cannot be read. Emit JSON containing 'x', or reference '.output' (whole text) instead."

def printEnvironment : NodeEnvironment :=
  { quietEnvironment with
    runSubprocess := fun call =>
      if call.arguments = ["-c", splicedScript] then .success (printedError ++ "\n") ""
      else .failed (some 127) "bash: command not found\n" }

end NodeEnvironment

theorem unresolvableReference_executed :
    printEnvironment.nodeText (bashNode printScript) = some printScript ∧
    RefersUnresolvably printEnvironment.serde helloContext.allOutputs printScript ∧
    (executeNode printEnvironment (bashNode printScript) helloContext).uses =
      [.subprocess "bash" ["-c", splicedScript]] ∧
    (executeNode printEnvironment (bashNode printScript) helloContext).result.output =
      .completed printedError none none none ∧
    ¬(executeNode printEnvironment (bashNode printScript) helloContext).FailedUnused := by
  have output : (executeNode printEnvironment (bashNode printScript) helloContext).result.output =
      .completed printedError none none none := by
    decide +kernel
  refine ⟨rfl, ?_, by decide +kernel, output, fun failed => ?_⟩
  · exact ⟨"a", "x", .completed "hello" none none none,
      { nodeId := "a", field := "x", reason := .unparseable },
      by decide +kernel, by decide, by decide⟩
  · have completed := failed.1
    rw [output] at completed
    cases completed

end HarnessAgent
