import HarnessAgent.Schema.NodeSchema

/-! # Reading and writing a node

The settings that all nodes share are read together with the fields of all modes. Exactly one
mode has to be there, and the node is made from its field. A node is written with its settings
first and the field of its mode behind them.
-/

namespace HarnessAgent

namespace NodeSchema

open IterationOrder

/-- What is refused by hand-written code, with its text; all else is invalid for the types. -/
inductive DeserializeError
  | custom (message : String)
  | unknownVariant (variant : String) (expected : List String)
  | missingField (name : String)
  | invalid
  deriving DecidableEq, Repr

/-! ## Thinking -/

namespace ThinkingConfig

def variants : List String := ["adaptive", "enabled", "disabled"]

def visitStr (text : String) : Except DeserializeError ThinkingConfig :=
  if text = "adaptive" then .ok .adaptive
  else if text = "enabled" then .ok (.enabled none)
  else if text = "disabled" then .ok .disabled
  else .error (.unknownVariant text variants)

def nextValue {α : Type} (read : Value → Option α) (member : Option Value) :
    Except DeserializeError (Option α) :=
  match member with
  | none => .ok none
  | some json =>
      match read json with
      | some value => .ok (some value)
      | none => .error .invalid

def enabledWith : Option Int → Except DeserializeError ThinkingConfig
  | none => .ok (.enabled none)
  | some budget =>
      if budget ≤ 0 then .error (.custom "Number must be greater than 0")
      -- the cast drops the upper bits
      else .ok (.enabled (some (budget.toNat % 2 ^ 32)))

def visitMap (members : Members) : Except DeserializeError ThinkingConfig := do
  let type ← nextValue Value.asStr (members.get "type")
  let budgetTokens ← nextValue Value.asI64 (members.get "budgetTokens")
  match type with
  | none => .error (.missingField "type")
  | some type =>
      if type = "adaptive" then .ok .adaptive
      else if type = "enabled" then enabledWith budgetTokens
      else if type = "disabled" then .ok .disabled
      else .error (.unknownVariant type variants)

def deserialize : Value → Except DeserializeError ThinkingConfig
  | .string text => visitStr text
  | .object members => visitMap members
  | _ => .error .invalid

def serialize : ThinkingConfig → Value
  | .adaptive => .object [("type", .string "adaptive")]
  | .enabled none => .object [("type", .string "enabled")]
  | .enabled (some budget) =>
      .object [("type", .string "enabled"), ("budgetTokens", .number (.posInt budget))]
  | .disabled => .object [("type", .string "disabled")]

end ThinkingConfig

def thinkingConfig : Codec ThinkingConfig :=
  .writing (fun json => (ThinkingConfig.deserialize json).toOption) ThinkingConfig.serialize

instance : thinkingConfig.Total := ⟨fun _ => ⟨_, rfl⟩⟩

instance : thinkingConfig.NotNull := ⟨rfl⟩

/-! ## What all nodes share -/

structure DagNodeBase where
  id : String
  dependsOn : List String := []
  when : Option String := none
  triggerRule : Option TriggerRule := none
  model : Option String := none
  provider : Option String := none
  context : Option ContextMode := none
  outputFormat : Option Members := none
  allowedTools : Option (List String) := none
  deniedTools : Option (List String) := none
  idleTimeout : Option F64 := none
  retry : Option StepRetryConfig := none
  hooks : Option WorkflowNodeHooks := none
  mcp : Option String := none
  skills : Option (List String) := none
  agents : Option (Dictionary String AgentDefinition) := none
  effort : Option EffortLevel := none
  thinking : Option ThinkingConfig := none
  maxBudgetUsd : Option F64 := none
  systemPrompt : Option String := none
  fallbackModel : Option String := none
  betas : Option (List String) := none
  sandbox : Option SandboxSettings := none
  alwaysRun : Option Bool := none
  persistSession : Option Bool := none
  outputType : Option String := none

abbrev BaseTypes : List Type :=
  [String, List String, Option String, Option TriggerRule, Option String, Option String,
    Option ContextMode, Option Members, Option (List String), Option (List String), Option F64,
    Option StepRetryConfig, Option WorkflowNodeHooks, Option String, Option (List String),
    Option (Dictionary String AgentDefinition), Option EffortLevel, Option ThinkingConfig,
    Option F64, Option String, Option String, Option (List String), Option SandboxSettings,
    Option Bool, Option Bool, Option String]

def baseFields : Fields BaseTypes :=
  .cons (.required "id" .text) <|
  .cons (.listOrEmpty "depends_on" .text) <|
  .cons (.optional "when" .text) <|
  .cons (.optional "trigger_rule" triggerRule) <|
  .cons (.optional "model" .text) <|
  .cons (.optional "provider" .trimmedText) <|
  .cons (.optional "context" contextMode) <|
  .cons (.optional "output_format" .object) <|
  .cons (.optional "allowed_tools" Codec.text.list) <|
  .cons (.optional "denied_tools" Codec.text.list) <|
  .cons (.optional "idle_timeout" .float) <|
  .cons (.optional "retry" retryConfig) <|
  .cons (.optional "hooks" nodeHooks) <|
  .cons (.optional "mcp" .trimmedText) <|
  .cons (.optional "skills" Codec.trimmedText.list) <|
  .cons (.optional "agents" (.dictionary .texts agentDefinition)) <|
  .cons (.optional "effort" effortLevel) <|
  .cons (.optional "thinking" thinkingConfig) <|
  .cons (.optional "maxBudgetUsd" .float) <|
  .cons (.optional "systemPrompt" .text) <|
  .cons (.optional "fallbackModel" .text) <|
  .cons (.optional "betas" Codec.text.list) <|
  .cons (.optional "sandbox" sandboxSettings) <|
  .cons (.optional "always_run" .flag) <|
  .cons (.optional "persist_session" .flag) <|
  .cons (.optional "output_type" .text) .nil

def baseLayout : DagNodeBase ≃ Record BaseTypes where
  toFun base := (base.id, base.dependsOn, base.when, base.triggerRule, base.model, base.provider,
    base.context, base.outputFormat, base.allowedTools, base.deniedTools, base.idleTimeout,
    base.retry, base.hooks, base.mcp, base.skills, base.agents, base.effort, base.thinking,
    base.maxBudgetUsd, base.systemPrompt, base.fallbackModel, base.betas, base.sandbox,
    base.alwaysRun, base.persistSession, base.outputType, ())
  invFun record :=
    let ⟨id, dependsOn, when, triggerRule, model, provider, context, outputFormat, allowedTools,
      deniedTools, idleTimeout, retry, hooks, mcp, skills, agents, effort, thinking, maxBudgetUsd,
      systemPrompt, fallbackModel, betas, sandbox, alwaysRun, persistSession, outputType, ()⟩ :=
        record
    ⟨id, dependsOn, when, triggerRule, model, provider, context, outputFormat, allowedTools,
      deniedTools, idleTimeout, retry, hooks, mcp, skills, agents, effort, thinking, maxBudgetUsd,
      systemPrompt, fallbackModel, betas, sandbox, alwaysRun, persistSession, outputType⟩
  left_inv _ := rfl
  right_inv _ := rfl

/-! ## Modes -/

def loopFields : Fields [String, String, Nat, Bool, Option String, Option Bool, Option String] :=
  .cons (.required "prompt" .text) <|
  .cons (.required "until" .text) <|
  .cons (.required "max_iterations" (.natural (2 ^ 32))) <|
  .cons (.orDefault "fresh_context" .flag false) <|
  .cons (.optional "until_bash" .text) <|
  .cons (.optional "interactive" .flag) <|
  .cons (.optional "gate_message" .text) .nil

def loopLayout : LoopNodeConfig ≃
    Record [String, String, Nat, Bool, Option String, Option Bool, Option String] where
  toFun config := (config.prompt, config.untilSignal, config.maxIterations, config.freshContext,
    config.untilBash, config.interactive, config.gateMessage, ())
  invFun record := ⟨record.1, record.2.1, record.2.2.1, record.2.2.2.1, record.2.2.2.2.1,
    record.2.2.2.2.2.1, record.2.2.2.2.2.2.1⟩
  left_inv _ := rfl
  right_inv _ := rfl

def loopConfig : Codec LoopNodeConfig := .record loopFields loopLayout

def onRejectFields : Fields [String, Option Nat] :=
  .cons (.required "prompt" .text) <|
  .cons (.optional "max_attempts" (.natural (2 ^ 8))) .nil

def onRejectLayout : ApprovalOnReject ≃ Record [String, Option Nat] where
  toFun config := (config.prompt, config.maxAttempts, ())
  invFun record := ⟨record.1, record.2.1⟩
  left_inv _ := rfl
  right_inv _ := rfl

def approvalOnReject : Codec ApprovalOnReject := .record onRejectFields onRejectLayout

def approvalFields : Fields [String, Option Bool, Option ApprovalOnReject] :=
  .cons (.required "message" .text) <|
  .cons (.optional "capture_response" .flag) <|
  .cons (.optional "on_reject" approvalOnReject) .nil

def approvalLayout : ApprovalConfig ≃ Record [String, Option Bool, Option ApprovalOnReject] where
  toFun config := (config.message, config.captureResponse, config.onReject, ())
  invFun record := ⟨record.1, record.2.1, record.2.2.1⟩
  left_inv _ := rfl
  right_inv _ := rfl

def approvalConfig : Codec ApprovalConfig := .record approvalFields approvalLayout

structure ModeFields where
  command : Option String := none
  prompt : Option String := none
  bash : Option String := none
  loopConfig : Option LoopNodeConfig := none
  approval : Option ApprovalConfig := none
  cancel : Option String := none
  script : Option String := none
  runtime : Option ScriptRuntime := none
  deps : Option (List String) := none
  timeout : Option F64 := none

abbrev ModeTypes : List Type :=
  [Option String, Option String, Option String, Option LoopNodeConfig, Option ApprovalConfig,
    Option String, Option String, Option ScriptRuntime, Option (List String), Option F64]

def modeFields : Fields ModeTypes :=
  .cons (.optional "command" .text) <|
  .cons (.optional "prompt" .text) <|
  .cons (.optional "bash" .text) <|
  .cons (.optional "loop" loopConfig) <|
  .cons (.optional "approval" approvalConfig) <|
  .cons (.optional "cancel" .text) <|
  .cons (.optional "script" .text) <|
  .cons (.optional "runtime" scriptRuntime) <|
  .cons (.optional "deps" Codec.text.list) <|
  .cons (.optional "timeout" .float) .nil

def modeLayout : ModeFields ≃ Record ModeTypes where
  toFun modes := (modes.command, modes.prompt, modes.bash, modes.loopConfig, modes.approval,
    modes.cancel, modes.script, modes.runtime, modes.deps, modes.timeout, ())
  invFun record :=
    let ⟨command, prompt, bash, loopConfig, approval, cancel, script, runtime, deps, timeout, ()⟩ :=
      record
    ⟨command, prompt, bash, loopConfig, approval, cancel, script, runtime, deps, timeout⟩
  left_inv _ := rfl
  right_inv _ := rfl

structure RawDagNode where
  base : DagNodeBase
  modes : ModeFields

def RawDagNode.deserialize : Value → Option RawDagNode
  | .object members => do
      let base ← baseFields.decode (Members.get members)
      let modes ← modeFields.decode (Members.get members)
      return ⟨baseLayout.symm base, modeLayout.symm modes⟩
  | _ => none

/-! ## Nodes -/

structure CommandNode where
  base : DagNodeBase
  command : String

structure PromptNode where
  base : DagNodeBase
  prompt : String

structure BashNode where
  base : DagNodeBase
  bash : String
  timeout : Option F64 := none

structure ScriptNode where
  base : DagNodeBase
  script : String
  runtime : ScriptRuntime
  deps : Option (List String) := none
  timeout : Option F64 := none

structure LoopNode where
  base : DagNodeBase
  loopConfig : LoopNodeConfig

structure ApprovalNode where
  base : DagNodeBase
  approval : ApprovalConfig

structure CancelNode where
  base : DagNodeBase
  cancel : String

inductive DagNode
  | command (node : CommandNode)
  | prompt (node : PromptNode)
  | bash (node : BashNode)
  | script (node : ScriptNode)
  | loop (node : LoopNode)
  | approval (node : ApprovalNode)
  | cancel (node : CancelNode)

inductive Mode
  | command
  | prompt
  | bash
  | loop
  | approval
  | cancel
  | script
  deriving DecidableEq, Repr

def modesInOrder : List Mode :=
  [.command, .prompt, .bash, .loop, .approval, .cancel, .script]

def isShown (field : Option String) : Bool :=
  (field.map fun text => !text.trimmed.isEmpty).getD false

def ModeFields.has (modes : ModeFields) : Mode → Bool
  | .command => isShown modes.command
  | .prompt => isShown modes.prompt
  | .bash => isShown modes.bash
  | .loop => modes.loopConfig.isSome
  | .approval => modes.approval.isSome
  | .cancel => isShown modes.cancel
  | .script => isShown modes.script

def ModeFields.modeCount (modes : ModeFields) : Nat := modesInOrder.countP modes.has

def unwrapTrimmed (field : Option String) : String := (field.getD "").trimmed

namespace DagNode

def build (raw : RawDagNode) : Except DeserializeError DagNode :=
  let modes := raw.modes
  if modes.has .command then
    .ok (.command { base := raw.base, command := unwrapTrimmed modes.command })
  else if modes.has .prompt then
    .ok (.prompt { base := raw.base, prompt := unwrapTrimmed modes.prompt })
  else if modes.has .bash then
    .ok (.bash { base := raw.base, bash := unwrapTrimmed modes.bash, timeout := modes.timeout })
  else if modes.has .script then
    match modes.runtime with
    | none => .error (.custom "'runtime' is required for script nodes ('bun' or 'uv')")
    | some runtime =>
        .ok (.script
          { base := raw.base
            script := unwrapTrimmed modes.script
            runtime := runtime
            deps := modes.deps
            timeout := modes.timeout })
  else
    match modes.approval with
    | some config => .ok (.approval { base := raw.base, approval := config })
    | none =>
        if modes.has .cancel then
          .ok (.cancel { base := raw.base, cancel := unwrapTrimmed modes.cancel })
        else
          match modes.loopConfig with
          | some config => .ok (.loop { base := raw.base, loopConfig := config })
          -- not reached: a mode is there, and it is none of the others
          | none => .error .invalid

def ofRaw (raw : RawDagNode) : Except DeserializeError DagNode :=
  if 1 < raw.modes.modeCount then
    .error (.custom ("'command', 'prompt', 'bash', 'loop', 'approval', 'cancel', and 'script' " ++
      "are mutually exclusive"))
  else if raw.modes.modeCount = 0 then
    if raw.modes.bash.isSome then .error (.custom "bash script cannot be empty")
    else if raw.modes.prompt.isSome then .error (.custom "prompt cannot be empty")
    else if raw.modes.script.isSome then .error (.custom "script cannot be empty")
    else
      .error (.custom ("must have either 'command', 'prompt', 'bash', 'loop', 'approval', " ++
        "'cancel', or 'script'"))
  else build raw

def deserialize (json : Value) : Except DeserializeError DagNode :=
  match RawDagNode.deserialize json with
  | some raw => ofRaw raw
  | none => .error .invalid

/-! ## Writing -/

def WritesWith {types : List Type} (base : DagNodeBase) (fields : Fields types)
    (record : Record types) (json : Value) : Prop :=
  ∃ shared own, baseFields.Writes (baseLayout base) shared ∧ fields.Writes record own ∧
    json = .object (shared ++ own)

def Writes : DagNode → Value → Prop
  | .command node =>
      WritesWith node.base (.cons (.required "command" .text) .nil) (node.command, ())
  | .prompt node =>
      WritesWith node.base (.cons (.required "prompt" .text) .nil) (node.prompt, ())
  | .bash node =>
      WritesWith node.base
        (.cons (.required "bash" .text) <| .cons (.optional "timeout" .float) .nil)
        (node.bash, node.timeout, ())
  | .script node =>
      WritesWith node.base
        (.cons (.required "script" .text) <|
          .cons (.required "runtime" scriptRuntime) <|
          .cons (.optional "deps" Codec.text.list) <|
          .cons (.optional "timeout" .float) .nil)
        (node.script, node.runtime, node.deps, node.timeout, ())
  | .loop node =>
      WritesWith node.base (.cons (.required "loop" loopConfig) .nil) (node.loopConfig, ())
  | .approval node =>
      WritesWith node.base (.cons (.required "approval" approvalConfig) .nil) (node.approval, ())
  | .cancel node =>
      WritesWith node.base (.cons (.required "cancel" .text) .nil) (node.cancel, ())

end DagNode

end NodeSchema

end HarnessAgent
