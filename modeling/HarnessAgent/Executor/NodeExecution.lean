import HarnessAgent.Executor.DagWorkflow
import HarnessAgent.Executor.Subprocess
import HarnessAgent.Executor.Substitution

/-! # Executors of nodes

Each kind of node substitutes into its text and hands the result to a
subprocess, to a provider, or to the store. An execution records what the text
was handed to, besides the output of the node.
-/

namespace HarnessAgent

inductive Use
  | writeFile (path content : String)
  | subprocess (command : String) (arguments : List String)
  | query (prompt : String)
  | cancelRun (reason : String)
  | pauseRun (context : ApprovalContext)
  deriving DecidableEq, Repr

/-- Whether the text is acted upon; a pause only shows it, and a file only keeps
a value for it. -/
def Use.executes : Use → Bool
  | .pauseRun _ => false
  | .writeFile _ _ => false
  | _ => true

structure Execution where
  result : NodeResult
  uses : List Use := []
  deriving DecidableEq, Repr

def Execution.fail (error : String) : Execution :=
  { result := { output := .failure error } }

structure ScriptDefinition where
  path : String
  runtime : ScriptRuntime
  deriving DecidableEq, Repr

structure LoopPass where
  thrown : Option String := none
  idleTimedOut : Bool := false
  fullOutput : String := ""
  cleanOutput : String := ""
  sessionId : Option String := none
  cost : Option F64 := none
  structuredOutput : Option Value := none
  deriving DecidableEq, Repr

/-- What an attempt of an AI node leads to after its first query: its result, and the
prompts with which the provider is asked again. -/
structure AiAnswer where
  result : NodeResult
  reasks : List String := []
  deriving DecidableEq, Repr

/-- The run, its settings, and everything the executors call. Provider and model
resolution answers with the provider; `stream` is the part of an AI node that
follows its first query, for each attempt. -/
structure NodeEnvironment where
  serde : SerdeJson
  canWrite : String → Bool
  run : WorkflowRun
  artifactsDir : String
  logDir : String
  baseBranch : String
  docsDir : String
  issueContext : Option String
  envVars : EnvVars
  persistSessions : Bool
  runSubprocess : SubprocessCall → SubprocessOutcome
  discoverScripts : Except String (String → Option ScriptDefinition)
  loadCommandPrompt : String → Except String String
  resolveProvider : DagNode → Except String String
  isRegistered : String → Bool
  sessionResume : String → Bool
  persistedSession : String → String → Option String
  stream : Nat → DagNode → Option String → String → AiAnswer
  loopPass : Nat → Option String → String → LoopPass
  detectCompletionSignal : String → String → Bool
  runStatus : Nat → Except String (Option WorkflowRunStatus)
  sendGateMessage : Bool
  pauseRun : ApprovalContext → Except String Unit

namespace NodeEnvironment

variable (environment : NodeEnvironment)

def workflowVariables : WorkflowVariables where
  workflowId := environment.run.id
  userMessage := environment.run.userMessage
  artifactsDir := environment.artifactsDir
  baseBranch := environment.baseBranch
  docsDir := environment.docsDir
  issueContext := environment.issueContext

/-- The variables of the shell: fixed ones first, then those of the settings. -/
def overlay (fixed : List (String × String)) : EnvVars :=
  environment.envVars.entries.foldl (fun values entry => values.insert entry.1 entry.2)
    (fixed.foldl (fun values entry => values.insert entry.1 entry.2) ∅)

def contextOverlay : List (String × String) :=
  let context := environment.issueContext.getD ""
  [("CONTEXT", context), ("EXTERNAL_CONTEXT", context), ("ISSUE_CONTEXT", context)]

def subprocessTimeout (timeout : Option F64) : Nat :=
  match timeout with
  | some timeout => timeout.toUnsigned 64
  | none => subprocessDefaultTimeout

def substitutePlain (nodeOutputs : NodeOutputs) (text : String) : String :=
  substituteNodeOutputRefs environment.serde environment.canWrite nodeOutputs false none text

/-- References in a shell script, which are quoted or read from files. -/
def substituteForBash (nodeOutputs : NodeOutputs) (text : String) : String :=
  substituteNodeOutputRefs environment.serde environment.canWrite nodeOutputs true
    (some environment.logDir) text

/-- A subprocess for a shell script, after the files that its references read. -/
def bashUses (nodeOutputs : NodeOutputs) (text : String) (call : SubprocessCall) : List Use :=
  (Substitution.writtenFiles environment.serde environment.canWrite nodeOutputs true
    (some environment.logDir) text).map (fun file => .writeFile file.1 file.2) ++
    [.subprocess call.command call.arguments]

/-! ## Bash and script nodes -/

def executeBashNode (node : BashNode) (nodeOutputs : NodeOutputs) : Execution :=
  let label := "Bash node '" ++ node.base.id ++ "'"
  match substituteWorkflowVariables environment.workflowVariables true node.bash with
  | .error _ => .fail (label ++ " failed: $BASE_BRANCH is referenced but no base branch is set")
  | .ok substituted =>
      let finalScript := environment.substituteForBash nodeOutputs substituted.prompt
      let call : SubprocessCall :=
        { command := "bash",
          arguments := ["-c", finalScript],
          timeoutMs := subprocessTimeout node.timeout,
          envOverlay := environment.overlay
            ([("ARTIFACTS_DIR", environment.artifactsDir), ("LOG_DIR", environment.logDir),
              ("BASE_BRANCH", environment.baseBranch),
              ("USER_MESSAGE", environment.run.userMessage),
              ("ARGUMENTS", environment.run.userMessage), ("LOOP_USER_INPUT", ""),
              ("LOOP_PREV_OUTPUT", ""), ("REJECTION_REASON", "")] ++
              environment.contextOverlay) }
      { result := { output := subprocessOutput label "bash" call (environment.runSubprocess call) },
        uses := environment.bashUses nodeOutputs substituted.prompt call }

/-- Whether a script is code; a name has no white space or shell characters. -/
def isInlineScript (script : String) : Bool :=
  script.toList.any fun character =>
    character == '\n' || ";(){}&|<>$`\"' ".toList.contains character

def withArguments (deps : List String) : List String :=
  deps.flatMap fun dep => ["--with", dep]

def scriptCommand (node : ScriptNode) (finalScript : String) :
    Except String (String × List String) :=
  let deps := node.deps.getD []
  let label := "Script node '" ++ node.base.id ++ "'"
  if isInlineScript finalScript then
    match node.runtime with
    | .bun => .ok ("bun", ["--no-env-file", "-e", finalScript])
    | .uv => .ok ("uv", ["run"] ++ withArguments deps ++ ["python", "-c", finalScript])
  else
    match environment.discoverScripts with
    | .error error => .error (label ++ ": failed to discover scripts — " ++ error)
    | .ok scripts =>
        match scripts finalScript with
        | none =>
            .error (label ++ ": named script '" ++ finalScript ++
              "' not found in .archon/scripts/ or ~/.archon/scripts/")
        | some definition =>
            match definition.runtime with
            | .uv => .ok ("uv", ["run"] ++ withArguments deps ++ [definition.path])
            | .bun => .ok ("bun", ["--no-env-file", "run", definition.path])

def executeScriptNode (node : ScriptNode) (nodeOutputs : NodeOutputs) : Execution :=
  let label := "Script node '" ++ node.base.id ++ "'"
  match substituteWorkflowVariables environment.workflowVariables false node.script with
  | .error _ => .fail (label ++ " failed: $BASE_BRANCH is referenced but no base branch is set")
  | .ok substituted =>
      let finalScript := environment.substitutePlain nodeOutputs substituted.prompt
      match environment.scriptCommand node finalScript with
      | .error error => .fail error
      | .ok (command, arguments) =>
          let call : SubprocessCall :=
            { command, arguments,
              timeoutMs := subprocessTimeout node.timeout,
              envOverlay := environment.overlay
                [("ARTIFACTS_DIR", environment.artifactsDir), ("LOG_DIR", environment.logDir),
                  ("BASE_BRANCH", environment.baseBranch)] }
          { result :=
              { output := subprocessOutput label ("'" ++ command ++ "'") call
                  (environment.runSubprocess call) },
            uses := [.subprocess command arguments] }

/-! ## Cancel nodes -/

def executeCancelNode (node : CancelNode) (nodeOutputs : NodeOutputs) : Execution :=
  let reason := environment.substitutePlain nodeOutputs node.cancel
  { result := { output := .completed reason none none none }, uses := [.cancelRun reason] }

/-! ## Prompt and command nodes -/

inductive ErrorType
  | transient
  | fatal
  | unknown
  deriving DecidableEq, Repr

def fatalPatterns : List String :=
  ["unauthorized", "forbidden", "invalid token", "authentication failed", "permission denied",
    "401", "403", "credit balance", "auth error"]

def transientPatterns : List String :=
  ["timeout", "econnrefused", "econnreset", "etimedout", "rate limit", "too many requests",
    "429", "503", "502", "529", "overloaded", "network error", "socket hang up",
    "exited with code", "claude code crash"]

def classifyError (message : String) : ErrorType :=
  let lower := Text.lowercase message.toList
  if fatalPatterns.any fun pattern => Text.occurs pattern.toList lower then .fatal
  else if transientPatterns.any fun pattern => Text.occurs pattern.toList lower then .transient
  else .unknown

structure RetryConfig where
  maxRetries : Nat
  onError : OnError
  deriving DecidableEq, Repr

def getEffectiveNodeRetryConfig (node : DagNode) : RetryConfig :=
  match node.base.retry with
  | some retry => { maxRetries := retry.maxAttempts, onError := retry.onError.getD .transient }
  | none => { maxRetries := 2, onError := .transient }

def shouldRetry (config : RetryConfig) (error : String) : Bool :=
  match classifyError error with
  | .fatal => false
  | .transient => true
  | .unknown => config.onError = .all

def retryLoop (config : RetryConfig) (execute : Nat → Execution) : Nat → Nat → Execution
  | attempt, 0 => execute attempt
  | attempt, remaining + 1 =>
      let execution := execute attempt
      match execution.result.output with
      | .failed _ _ error _ _ =>
          if shouldRetry config error then
            let later := retryLoop config execute (attempt + 1) remaining
            { later with uses := execution.uses ++ later.uses }
          else execution
      | _ => execution

/-- What holds of every attempt, and of a later result together with the uses of a failed
attempt before it, holds of all attempts. -/
theorem retryLoop_rule {config : RetryConfig} {execute : Nat → Execution}
    {motive : Execution → Prop} (once : ∀ attempt, motive (execute attempt))
    (again : ∀ attempt later, motive later →
      motive { later with uses := (execute attempt).uses ++ later.uses })
    (attempt remaining : Nat) : motive (retryLoop config execute attempt remaining) := by
  induction remaining generalizing attempt with
  | zero => exact once attempt
  | succ remaining induction =>
      rw [retryLoop]
      split
      · split
        · exact again attempt _ (induction (attempt + 1))
        · exact once attempt
      · exact once attempt

def rawPrompt (node : DagNode) : Except String String :=
  match node with
  | .command node => environment.loadCommandPrompt node.command
  | .prompt node => .ok node.prompt
  | node => .error ("Node '" ++ node.id ++ "': not an AI node type")

def executeNodeInternal (node : DagNode) (provider : String) (nodeOutputs : NodeOutputs)
    (resumeSession : Option String) (attempt : Nat) : Execution :=
  match environment.rawPrompt node with
  | .error error => .fail error
  | .ok prompt =>
      match buildPromptWithContext environment.workflowVariables prompt with
      | .error error => .fail error.message
      | .ok substituted =>
          let finalPrompt := environment.substitutePlain nodeOutputs substituted
          if environment.isRegistered provider then
            let answer := environment.stream attempt node resumeSession finalPrompt
            { result := answer.result,
              uses := .query finalPrompt :: answer.reasks.map .query }
          else
            .fail ("Node '" ++ node.id ++ "': cannot get capabilities for provider '" ++
              provider ++ "'")

def persistsSession (node : DagNode) : Bool :=
  node.base.persistSession.getD environment.persistSessions && node.base.context ≠ some .fresh

def executeAiNode (node : DagNode) (context : TaskContext) : Execution :=
  match environment.resolveProvider node with
  | .error error => .fail error
  | .ok provider =>
      let sequentialSession :=
        if context.isParallel || node.base.context = some .fresh then none
        else context.resumeSession
      let attempts (session : Option String) :=
        let config := getEffectiveNodeRetryConfig node
        retryLoop config
          (environment.executeNodeInternal node provider context.allOutputs session)
          0 config.maxRetries
      if environment.persistsSession node then
        if environment.sessionResume provider then
          let persisted :=
            if environment.run.conversationId = "" then none
            else environment.persistedSession node.id provider
          attempts (persisted.or sequentialSession)
        else
          .fail ("Node '" ++ node.id ++ "' has persist_session: true but resolved provider '" ++
            provider ++ "' does not support sessionResume. Remove persist_session, or use a " ++
            "provider with sessionResume capability.")
      else attempts sequentialSession

/-! ## Loop nodes -/

def isApprovalContext (value : Value) : Bool :=
  ((value.get "nodeId").bind Value.asStr).isSome && ((value.get "message").bind Value.asStr).isSome

def approvalFor (approvalType nodeId : String) : Option Value :=
  (Members.get environment.run.metadata "approval").filter fun value =>
    isApprovalContext value && (value.get "type").bind Value.asStr = some approvalType &&
      (value.get "nodeId").bind Value.asStr = some nodeId

/-- The iteration stored by the last pause, plus one in 32 bits. -/
def startIteration (node : LoopNode) : Nat :=
  match environment.approvalFor "interactive_loop" node.base.id with
  | some value =>
      ((((value.get "iteration").bind Value.asF64).getD F64.zero).toUnsigned 32 + 1) % 2 ^ 32
  | none => 1

def shouldContinueStreamingForStatus : Option WorkflowRunStatus → Bool
  | some .running | some .paused => true
  | _ => false

structure LoopState where
  lastOutput : String := ""
  lastStructuredOutput : Option Value := none
  cost : Option F64 := none
  sessionId : Option String := none
  uses : List Use := []
  deriving DecidableEq, Repr

def LoopState.fail (state : LoopState) (cost : Option F64) (error : String) : Execution :=
  { result := { output := .failure error, cost }, uses := state.uses }

def LoopState.afterPass (state : LoopState) (prompt : String) (pass : LoopPass) : LoopState where
  lastOutput := if pass.cleanOutput = "" then pass.fullOutput else pass.cleanOutput
  lastStructuredOutput := pass.structuredOutput.or state.lastStructuredOutput
  cost :=
    match pass.cost with
    | some cost => some (state.cost.getD F64.zero + cost)
    | none => state.cost
  sessionId := pass.sessionId.or state.sessionId
  uses := state.uses ++ [.query prompt]

/-- Runs the shell condition that ends a loop, if there is one: whether it
succeeds, and what it is handed to. -/
def runUntilBash (nodeOutputs : NodeOutputs) (loopUserInput prevOutput : String) :
    Option String → Bool × List Use
  | none => (false, [])
  | some untilBash =>
      match substituteWorkflowVariables environment.workflowVariables true untilBash with
      | .error _ => (false, [])
      | .ok substituted =>
          let call : SubprocessCall :=
            { command := "bash",
              arguments := ["-c", environment.substituteForBash nodeOutputs substituted.prompt],
              timeoutMs := subprocessDefaultTimeout,
              envOverlay := environment.overlay
                ([("USER_MESSAGE", environment.run.userMessage),
                  ("ARGUMENTS", environment.run.userMessage),
                  ("LOOP_USER_INPUT", loopUserInput), ("LOOP_PREV_OUTPUT", prevOutput),
                  ("REJECTION_REASON", "")] ++ environment.contextOverlay) }
          let succeeds :=
            match environment.runSubprocess call with
            | .success _ _ => true
            | _ => false
          (succeeds, environment.bashUses nodeOutputs substituted.prompt call)

def emptyIteration : String :=
  "Loop iteration produced no assistant output. The provider stream closed without yielding " ++
    "content — likely a silent provider rejection or stream interruption."

def loopGate (node : LoopNode) (message : String) (iteration : Nat) (state : LoopState) :
    Execution :=
  let context : ApprovalContext :=
    { nodeId := node.base.id, message, approvalType := some .interactiveLoop,
      iteration := some (F64.ofRat iteration), sessionId := state.sessionId }
  if environment.sendGateMessage then
    match environment.pauseRun context with
    | .error error => state.fail none error
    | .ok _ =>
        { result := { output := .completed state.lastOutput none none none, cost := state.cost },
          uses := state.uses ++ [.pauseRun context] }
  else
    { result :=
        { output := .failed state.lastOutput none
            ("Loop gate message failed to deliver for node '" ++ node.base.id ++
              "' — cannot pause safely") none none },
      uses := state.uses }

structure LoopFrame where
  node : LoopNode
  nodeOutputs : NodeOutputs
  isResume : Bool
  loopUserInput : String
  start : Nat

def LoopFrame.userInput (frame : LoopFrame) (iteration : Nat) : String :=
  if iteration = frame.start then frame.loopUserInput else ""

def iterationFailed (iteration : Nat) (error : String) : String :=
  "Loop iteration " ++ toString iteration ++ " failed: " ++ error

/-- The prompt of an iteration, or the reported cost and the error that ends the
loop before its query. -/
def loopPrompt (frame : LoopFrame) (iteration : Nat) (state : LoopState) :
    Except (Option F64 × String) String :=
  match environment.runStatus iteration with
  | .error error => .error (none, error)
  | .ok status =>
      if shouldContinueStreamingForStatus status then
        let values := { environment.workflowVariables with
          loopUserInput := some (frame.userInput iteration),
          loopPrevOutput := some (if iteration = frame.start then "" else state.lastOutput) }
        match substituteWorkflowVariables values false frame.node.loopConfig.prompt with
        | .error error => .error (state.cost, iterationFailed iteration error.message)
        | .ok substituted =>
            .ok (environment.substitutePlain frame.nodeOutputs substituted.prompt)
      else .error (none, "Workflow " ++ ((status.map statusToStr).getD "deleted"))

inductive LoopStep
  | ends (execution : Execution)
  | continues (state : LoopState)

def finishIteration (frame : LoopFrame) (iteration : Nat) (prevOutput : String)
    (pass : LoopPass) (after : LoopState) : LoopStep :=
  match pass.thrown with
  | some error => .ends (after.fail after.cost (iterationFailed iteration error))
  | none =>
      if !pass.idleTimedOut && pass.fullOutput.isBlank then
        .ends (after.fail after.cost (iterationFailed iteration emptyIteration))
      else
        let config := frame.node.loopConfig
        let signal := environment.detectCompletionSignal pass.fullOutput config.untilSignal
        let test := environment.runUntilBash frame.nodeOutputs (frame.userInput iteration)
          prevOutput config.untilBash
        let tested := { after with uses := after.uses ++ test.2 }
        let isInteractive := config.interactive.getD false
        if (signal || test.1) && !(isInteractive && !frame.isResume) then
          .ends
            { result :=
                { output := .completed tested.lastOutput tested.sessionId
                    tested.lastStructuredOutput none,
                  cost := tested.cost },
              uses := tested.uses }
        else
          match isInteractive, config.gateMessage with
          | true, some message => .ends (environment.loopGate frame.node message iteration tested)
          | _, _ => .continues tested

def loopStep (frame : LoopFrame) (iteration : Nat) (state : LoopState) : LoopStep :=
  match environment.loopPrompt frame iteration state with
  | .error (cost, error) => .ends (state.fail cost error)
  | .ok prompt =>
      let session :=
        if frame.node.loopConfig.freshContext || iteration = 1 then none else state.sessionId
      let pass := environment.loopPass iteration session prompt
      environment.finishIteration frame iteration state.lastOutput pass
        (state.afterPass prompt pass)

def loopIterations (frame : LoopFrame) : Nat → Nat → LoopState → Execution
  | 0, _, state =>
      { result :=
          { output := .failed state.lastOutput none
              ("Loop node '" ++ frame.node.base.id ++ "' exceeded max iterations (" ++
                toString frame.node.loopConfig.maxIterations ++
                ") without completion signal '" ++ frame.node.loopConfig.untilSignal ++ "'")
              none none,
            cost := state.cost },
        uses := state.uses }
  | remaining + 1, iteration, state =>
      match environment.loopStep frame iteration state with
      | .ends execution => execution
      | .continues next => loopIterations frame remaining (iteration + 1) next

/-- A loop starts, or goes on after the pause that the metadata of the run
record. -/
def loopFrame (node : LoopNode) (nodeOutputs : NodeOutputs) : LoopFrame :=
  let gate := environment.approvalFor "interactive_loop" node.base.id
  { node, nodeOutputs,
    isResume := gate.isSome,
    loopUserInput :=
      if gate.isSome then
        ((Members.get environment.run.metadata "loop_user_input").bind Value.asStr).getD ""
      else "",
    start := environment.startIteration node }

def executeLoopNode (node : LoopNode) (nodeOutputs : NodeOutputs) : Execution :=
  match environment.resolveProvider (.loop node) with
  | .error error => .fail error
  | .ok provider =>
      if environment.isRegistered provider then
        let start := environment.startIteration node
        let session := (environment.approvalFor "interactive_loop" node.base.id).bind
          fun value => (value.get "sessionId").bind Value.asStr
        environment.loopIterations (environment.loopFrame node nodeOutputs)
          (node.loopConfig.maxIterations + 1 - start) start { sessionId := session }
      else
        .fail ("Invalid provider '" ++ provider ++ "' for loop node '" ++ node.base.id ++
          "'. Check workflow YAML or .archon/config.yaml. Original: provider '" ++ provider ++
          "' is not registered")

/-! ## Approval nodes -/

def rejectionReason (node : ApprovalNode) : Option String :=
  match environment.approvalFor "approval" node.base.id with
  | some _ =>
      ((Members.get environment.run.metadata "rejection_reason").bind Value.asStr).filter
        fun reason => reason ≠ ""
  | none => none

def rejectionCount : F64 :=
  ((Members.get environment.run.metadata "rejection_count").bind Value.asF64).getD F64.zero

def maxAttempts (onReject : ApprovalOnReject) : Nat :=
  onReject.maxAttempts.getD 3

def attemptsExhausted (onReject : ApprovalOnReject) : Bool :=
  (F64.ofRat (maxAttempts onReject)).lessEqual environment.rejectionCount

def approvalGate (node : ApprovalNode) (nodeOutputs : NodeOutputs) (uses : List Use) :
    Execution :=
  let context : ApprovalContext :=
    { nodeId := node.base.id,
      message := environment.substitutePlain nodeOutputs node.approval.message,
      approvalType := some .approval,
      captureResponse := node.approval.captureResponse,
      onRejectPrompt := node.approval.onReject.map ApprovalOnReject.prompt,
      onRejectMaxAttempts := (node.approval.onReject.bind ApprovalOnReject.maxAttempts).map
        fun attempts => F64.ofRat attempts }
  match environment.pauseRun context with
  | .error error => { result := { output := .failure error }, uses }
  | .ok _ =>
      { result := { output := .completed "" none none none },
        uses := uses ++ [.pauseRun context] }

def rejectNode (node : ApprovalNode) (prompt : String) : DagNode :=
  .prompt
    { base := { id := node.base.id ++ ":on_reject", dependsOn := node.base.dependsOn },
      prompt }

def executeReject (node : ApprovalNode) (onReject : ApprovalOnReject) (reason : String)
    (nodeOutputs : NodeOutputs) : Execution :=
  let values := { environment.workflowVariables with rejectionReason := some reason }
  match substituteWorkflowVariables values false onReject.prompt with
  | .error error => .fail error.message
  | .ok substituted =>
      let synthetic :=
        rejectNode node (environment.substitutePlain nodeOutputs substituted.prompt)
      match environment.resolveProvider synthetic with
      | .error error => .fail error
      | .ok provider =>
          let execution :=
            environment.executeNodeInternal synthetic provider nodeOutputs none 0
          if execution.result.output.state = .failed then
            { execution with result := { output := execution.result.output } }
          else environment.approvalGate node nodeOutputs execution.uses

def executeApprovalNode (node : ApprovalNode) (nodeOutputs : NodeOutputs) : Execution :=
  match environment.rejectionReason node, node.approval.onReject with
  | some reason, some onReject =>
      if environment.attemptsExhausted onReject then
        { result := { output := .completed "" none none none },
          uses := [.cancelRun ("max_attempts (" ++ toString (maxAttempts onReject) ++
            ") exhausted")] }
      else environment.executeReject node onReject reason nodeOutputs
  | _, _ => environment.approvalGate node nodeOutputs []

end NodeEnvironment

open NodeEnvironment

def executeNode (environment : NodeEnvironment) (node : DagNode) (context : TaskContext) :
    Execution :=
  match node with
  | .bash node => environment.executeBashNode node context.allOutputs
  | .script node => environment.executeScriptNode node context.allOutputs
  | .cancel node => environment.executeCancelNode node context.allOutputs
  | .loop node => environment.executeLoopNode node context.allOutputs
  | .approval node => environment.executeApprovalNode node context.allOutputs
  | node => environment.executeAiNode node context

def DagNode.isAi : DagNode → Bool
  | .command _ => true
  | .prompt _ => true
  | _ => false

/-- An AI node fails before its first attempt, or its result is that of the attempts. -/
theorem NodeEnvironment.executeAiNode_cases (environment : NodeEnvironment) (node : DagNode)
    (context : TaskContext) :
    (∃ error, environment.executeAiNode node context = .fail error) ∨
      ∃ provider session, environment.resolveProvider node = .ok provider ∧
        environment.executeAiNode node context =
          retryLoop (getEffectiveNodeRetryConfig node)
            (environment.executeNodeInternal node provider context.allOutputs session) 0
            (getEffectiveNodeRetryConfig node).maxRetries := by
  unfold executeAiNode
  cases resolved : environment.resolveProvider node with
  | error error => exact .inl ⟨error, rfl⟩
  | ok provider =>
      simp only
      by_cases persists : environment.persistsSession node = true
      · rw [if_pos persists]
        by_cases supported : environment.sessionResume provider = true
        · rw [if_pos supported]
          exact .inr ⟨provider, _, rfl, rfl⟩
        · rw [if_neg supported]
          exact .inl ⟨_, rfl⟩
      · rw [if_neg persists]
        exact .inr ⟨provider, _, rfl, rfl⟩

theorem NodeEnvironment.query_of_approvalGate {environment : NodeEnvironment}
    (queries : Use.query prompt ∈ (environment.approvalGate gate nodeOutputs uses).uses) :
    Use.query prompt ∈ uses := by
  rw [approvalGate] at queries
  split at queries
  · exact queries
  · rcases List.mem_append.mp queries with earlier | pause
    · exact earlier
    · cases List.mem_singleton.mp pause

def NodeEnvironment.toEnvironment (environment : NodeEnvironment) (lost : DagNode → Bool)
    (statusAfterLayer : Nat → Except StoreError (Option WorkflowRunStatus))
    (statusAtEnd : Except StoreError (Option WorkflowRunStatus)) : Environment where
  serde := environment.serde
  dispatch := fun node context => (executeNode environment node context).result
  lost := lost
  statusAfterLayer := statusAfterLayer
  statusAtEnd := statusAtEnd

end HarnessAgent
