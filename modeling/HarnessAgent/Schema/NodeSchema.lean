import HarnessAgent.Foundation.RecordCodec
import HarnessAgent.Schema.WorkflowDefinition

/-! # The schema of a node

All settings of a node, and how each of them is read from JSON and written. A node holds its
settings next to the field of its mode. What is read for a node is kept aside first, because its
mode is not known before all members have been read.
-/

namespace HarnessAgent

namespace NodeSchema

open IterationOrder

/-! ## Names -/

def holdsNothing (json : Value) : Bool :=
  match json with
  | .null => true
  | .object members => members.isEmpty
  | _ => false

def triggerRule : Codec TriggerRule :=
  .enumeration [.allSuccess, .oneSuccess, .noneFailedMinOneSuccess, .allDone]
    (fun
      | .allSuccess => "all_success"
      | .oneSuccess => "one_success"
      | .noneFailedMinOneSuccess => "none_failed_min_one_success"
      | .allDone => "all_done")
    holdsNothing

inductive EffortLevel
  | low
  | medium
  | high
  | max
  deriving DecidableEq, Repr

def effortLevel : Codec EffortLevel :=
  .enumeration [.low, .medium, .high, .max]
    (fun
      | .low => "low"
      | .medium => "medium"
      | .high => "high"
      | .max => "max")
    holdsNothing

def contextMode : Codec ContextMode :=
  .enumeration [.fresh, .shared]
    (fun
      | .fresh => "fresh"
      | .shared => "shared")
    holdsNothing

def onError : Codec OnError :=
  .enumeration [.transient, .all]
    (fun
      | .transient => "transient"
      | .all => "all")
    holdsNothing

def scriptRuntime : Codec ScriptRuntime :=
  .enumeration [.bun, .uv]
    (fun
      | .bun => "bun"
      | .uv => "uv")
    Value.isNull

instance : triggerRule.Exact := by
  apply Codec.exact_enumeration
  intro value
  cases value <;> decide

instance : effortLevel.Exact := by
  apply Codec.exact_enumeration
  intro value
  cases value <;> decide

instance : contextMode.Exact := by
  apply Codec.exact_enumeration
  intro value
  cases value <;> decide

instance : onError.Exact := by
  apply Codec.exact_enumeration
  intro value
  cases value <;> decide

instance : scriptRuntime.Exact := by
  apply Codec.exact_enumeration
  intro value
  cases value <;> decide

instance : triggerRule.NotNull := ⟨rfl⟩

instance : effortLevel.NotNull := ⟨rfl⟩

instance : contextMode.NotNull := ⟨rfl⟩

instance : onError.NotNull := ⟨rfl⟩

instance : scriptRuntime.NotNull := ⟨rfl⟩

/-! ## Retries -/

def plainZero (number : F64) : F64 :=
  if number.isFinite ∧ number.value = 0 then F64.zero else number

def integer (number : Int) : Value :=
  .number (if 0 ≤ number then .posInt number.toNat else .negInt number.natAbs)

def serializeJsNumber (number : F64) : Value :=
  if number.isFinite ∧ number.value = number.value.floor ∧ |number.value| < 9007199254740992 then
    integer number.value.floor
  else if number.isFinite then .number (.float number)
  else .null

def jsNumber : Codec F64 := .writing Codec.float.decode serializeJsNumber

def retryFields : Fields [Nat, Option F64, Option OnError] :=
  .cons (.required "max_attempts" (.natural (2 ^ 8))) <|
  .cons (.optional "delay_ms" jsNumber) <|
  .cons (.optional "on_error" onError) .nil

def retryLayout : StepRetryConfig ≃ Record [Nat, Option F64, Option OnError] where
  toFun config := (config.maxAttempts, config.delayMs, config.onError, ())
  invFun record := ⟨record.1, record.2.1, record.2.2.1⟩
  left_inv _ := rfl
  right_inv _ := rfl

def retryConfig : Codec StepRetryConfig := .record retryFields retryLayout

/-! ## Hooks -/

inductive WorkflowHookEvent
  | preToolUse
  | postToolUse
  | postToolUseFailure
  | notification
  | userPromptSubmit
  | sessionStart
  | sessionEnd
  | stop
  | subagentStart
  | subagentStop
  | preCompact
  | permissionRequest
  | setup
  | teammateIdle
  | taskCompleted
  | elicitation
  | elicitationResult
  | configChange
  | worktreeCreate
  | worktreeRemove
  | instructionsLoaded
  deriving DecidableEq, Repr

namespace WorkflowHookEvent

def asStr : WorkflowHookEvent → String
  | .preToolUse => "PreToolUse"
  | .postToolUse => "PostToolUse"
  | .postToolUseFailure => "PostToolUseFailure"
  | .notification => "Notification"
  | .userPromptSubmit => "UserPromptSubmit"
  | .sessionStart => "SessionStart"
  | .sessionEnd => "SessionEnd"
  | .stop => "Stop"
  | .subagentStart => "SubagentStart"
  | .subagentStop => "SubagentStop"
  | .preCompact => "PreCompact"
  | .permissionRequest => "PermissionRequest"
  | .setup => "Setup"
  | .teammateIdle => "TeammateIdle"
  | .taskCompleted => "TaskCompleted"
  | .elicitation => "Elicitation"
  | .elicitationResult => "ElicitationResult"
  | .configChange => "ConfigChange"
  | .worktreeCreate => "WorktreeCreate"
  | .worktreeRemove => "WorktreeRemove"
  | .instructionsLoaded => "InstructionsLoaded"

def workflowHookEvents : List WorkflowHookEvent :=
  [.preToolUse, .postToolUse, .postToolUseFailure, .notification, .userPromptSubmit,
    .sessionStart, .sessionEnd, .stop, .subagentStart, .subagentStop, .preCompact,
    .permissionRequest, .setup, .teammateIdle, .taskCompleted, .elicitation,
    .elicitationResult, .configChange, .worktreeCreate, .worktreeRemove, .instructionsLoaded]

def fromStr (text : String) : Option WorkflowHookEvent :=
  workflowHookEvents.find? fun event => event.asStr = text

def keys : Codec.KeyText WorkflowHookEvent where
  read := fromStr
  print := asStr
  read_print event := by cases event <;> decide

end WorkflowHookEvent

structure WorkflowHookMatcher where
  matcher : Option String := none
  response : Dictionary String Value
  timeout : Option F64 := none

def hookMatcherFields : Fields [Option String, Dictionary String Value, Option F64] :=
  .cons (.optional "matcher" .text) <|
  .cons (.required "response" (.dictionary .texts .anything)) <|
  .cons (.optional "timeout" .float) .nil

def hookMatcherLayout :
    WorkflowHookMatcher ≃ Record [Option String, Dictionary String Value, Option F64] where
  toFun matcher := (matcher.matcher, matcher.response, matcher.timeout, ())
  invFun record := ⟨record.1, record.2.1, record.2.2.1⟩
  left_inv _ := rfl
  right_inv _ := rfl

def hookMatcher : Codec WorkflowHookMatcher := .record hookMatcherFields hookMatcherLayout

abbrev WorkflowNodeHooks := Dictionary WorkflowHookEvent (List WorkflowHookMatcher)

def nodeHooks : Codec WorkflowNodeHooks := .dictionary WorkflowHookEvent.keys hookMatcher.list

/-! ## Agents -/

structure AgentDefinition where
  description : String
  prompt : String
  model : Option String := none
  tools : Option (List String) := none
  disallowedTools : Option (List String) := none
  skills : Option (List String) := none
  maxTurns : Option Nat := none
  deriving DecidableEq, Repr

abbrev AgentTypes : List Type :=
  [String, String, Option String, Option (List String), Option (List String),
    Option (List String), Option Nat]

def agentFields : Fields AgentTypes :=
  .cons (.required "description" .text) <|
  .cons (.required "prompt" .text) <|
  .cons (.optional "model" .text) <|
  .cons (.optional "tools" Codec.text.list) <|
  .cons (.optional "disallowedTools" Codec.text.list) <|
  .cons (.optional "skills" Codec.text.list) <|
  .cons (.optional "maxTurns" (.natural (2 ^ 32))) .nil

def agentLayout : AgentDefinition ≃ Record AgentTypes where
  toFun agent := (agent.description, agent.prompt, agent.model, agent.tools,
    agent.disallowedTools, agent.skills, agent.maxTurns, ())
  invFun record := ⟨record.1, record.2.1, record.2.2.1, record.2.2.2.1, record.2.2.2.2.1,
    record.2.2.2.2.2.1, record.2.2.2.2.2.2.1⟩
  left_inv _ := rfl
  right_inv _ := rfl

def agentDefinition : Codec AgentDefinition := .record agentFields agentLayout

/-! ## Sandbox settings -/

structure SandboxNetworkSettings where
  allowedDomains : Option (List String) := none
  allowManagedDomainsOnly : Option Bool := none
  allowUnixSockets : Option (List String) := none
  allowAllUnixSockets : Option Bool := none
  allowLocalBinding : Option Bool := none
  httpProxyPort : Option F64 := none
  socksProxyPort : Option F64 := none
  deriving DecidableEq, Repr

abbrev NetworkTypes : List Type :=
  [Option (List String), Option Bool, Option (List String), Option Bool, Option Bool, Option F64,
    Option F64]

def networkFields : Fields NetworkTypes :=
  .cons (.optional "allowedDomains" Codec.text.list) <|
  .cons (.optional "allowManagedDomainsOnly" .flag) <|
  .cons (.optional "allowUnixSockets" Codec.text.list) <|
  .cons (.optional "allowAllUnixSockets" .flag) <|
  .cons (.optional "allowLocalBinding" .flag) <|
  .cons (.optional "httpProxyPort" .float) <|
  .cons (.optional "socksProxyPort" .float) .nil

def networkLayout : SandboxNetworkSettings ≃ Record NetworkTypes where
  toFun network := (network.allowedDomains, network.allowManagedDomainsOnly,
    network.allowUnixSockets, network.allowAllUnixSockets, network.allowLocalBinding,
    network.httpProxyPort, network.socksProxyPort, ())
  invFun record := ⟨record.1, record.2.1, record.2.2.1, record.2.2.2.1, record.2.2.2.2.1,
    record.2.2.2.2.2.1, record.2.2.2.2.2.2.1⟩
  left_inv _ := rfl
  right_inv _ := rfl

def sandboxNetwork : Codec SandboxNetworkSettings := .record networkFields networkLayout

structure SandboxFilesystemSettings where
  allowWrite : Option (List String) := none
  denyWrite : Option (List String) := none
  denyRead : Option (List String) := none
  deriving DecidableEq, Repr

abbrev FilesystemTypes : List Type :=
  [Option (List String), Option (List String), Option (List String)]

def filesystemFields : Fields FilesystemTypes :=
  .cons (.optional "allowWrite" Codec.text.list) <|
  .cons (.optional "denyWrite" Codec.text.list) <|
  .cons (.optional "denyRead" Codec.text.list) .nil

def filesystemLayout : SandboxFilesystemSettings ≃ Record FilesystemTypes where
  toFun filesystem := (filesystem.allowWrite, filesystem.denyWrite, filesystem.denyRead, ())
  invFun record := ⟨record.1, record.2.1, record.2.2.1⟩
  left_inv _ := rfl
  right_inv _ := rfl

def sandboxFilesystem : Codec SandboxFilesystemSettings :=
  .record filesystemFields filesystemLayout

structure SandboxRipgrepSettings where
  command : String
  args : Option (List String) := none
  deriving DecidableEq, Repr

def ripgrepFields : Fields [String, Option (List String)] :=
  .cons (.required "command" .text) <|
  .cons (.optional "args" Codec.text.list) .nil

def ripgrepLayout : SandboxRipgrepSettings ≃ Record [String, Option (List String)] where
  toFun ripgrep := (ripgrep.command, ripgrep.args, ())
  invFun record := ⟨record.1, record.2.1⟩
  left_inv _ := rfl
  right_inv _ := rfl

def sandboxRipgrep : Codec SandboxRipgrepSettings := .record ripgrepFields ripgrepLayout

structure SandboxSettings where
  enabled : Option Bool := none
  autoAllowBashIfSandboxed : Option Bool := none
  allowUnsandboxedCommands : Option Bool := none
  network : Option SandboxNetworkSettings := none
  filesystem : Option SandboxFilesystemSettings := none
  ignoreViolations : Option (Dictionary String (List String)) := none
  enableWeakerNestedSandbox : Option Bool := none
  enableWeakerNetworkIsolation : Option Bool := none
  excludedCommands : Option (List String) := none
  ripgrep : Option SandboxRipgrepSettings := none
  extra : Members := []

abbrev SandboxTypes : List Type :=
  [Option Bool, Option Bool, Option Bool, Option SandboxNetworkSettings,
    Option SandboxFilesystemSettings, Option (Dictionary String (List String)), Option Bool,
    Option Bool, Option (List String), Option SandboxRipgrepSettings]

def sandboxFields : Fields SandboxTypes :=
  .cons (.optional "enabled" .flag) <|
  .cons (.optional "autoAllowBashIfSandboxed" .flag) <|
  .cons (.optional "allowUnsandboxedCommands" .flag) <|
  .cons (.optional "network" sandboxNetwork) <|
  .cons (.optional "filesystem" sandboxFilesystem) <|
  .cons (.optional "ignoreViolations" (.dictionary .texts Codec.text.list)) <|
  .cons (.optional "enableWeakerNestedSandbox" .flag) <|
  .cons (.optional "enableWeakerNetworkIsolation" .flag) <|
  .cons (.optional "excludedCommands" Codec.text.list) <|
  .cons (.optional "ripgrep" sandboxRipgrep) .nil

def sandboxLayout : SandboxSettings ≃ Record SandboxTypes × Members where
  toFun sandbox := ((sandbox.enabled, sandbox.autoAllowBashIfSandboxed,
    sandbox.allowUnsandboxedCommands, sandbox.network, sandbox.filesystem,
    sandbox.ignoreViolations, sandbox.enableWeakerNestedSandbox,
    sandbox.enableWeakerNetworkIsolation, sandbox.excludedCommands, sandbox.ripgrep, ()),
    sandbox.extra)
  invFun parts :=
    let ⟨⟨enabled, autoAllow, unsandboxed, network, filesystem, violations, nested, isolation,
      excluded, ripgrep, ()⟩, extra⟩ := parts
    ⟨enabled, autoAllow, unsandboxed, network, filesystem, violations, nested, isolation, excluded,
      ripgrep, extra⟩
  left_inv _ := rfl
  right_inv _ := rfl

def sandboxSettings : Codec SandboxSettings := .openRecord sandboxFields sandboxLayout

/-! ## Settings come back as they were read -/

instance : jsNumber.Total := ⟨fun _ => ⟨_, rfl⟩⟩

instance : jsNumber.NotNull := ⟨rfl⟩

instance : retryFields.Total := by
  unfold retryFields
  infer_instance

instance : retryConfig.Total := by
  unfold retryConfig
  infer_instance

instance : retryConfig.NotNull := ⟨rfl⟩

instance : hookMatcherFields.Exact := by
  unfold hookMatcherFields
  infer_instance

instance : hookMatcher.Exact := Codec.exact_record (by decide)

instance : nodeHooks.Exact := by
  unfold nodeHooks
  infer_instance

instance : nodeHooks.NotNull := ⟨rfl⟩

instance : agentFields.Exact := by
  unfold agentFields
  infer_instance

instance : agentDefinition.Exact := Codec.exact_record (by decide)

instance : networkFields.Exact := by
  unfold networkFields
  infer_instance

instance : sandboxNetwork.Exact := Codec.exact_record (by decide)

instance : sandboxNetwork.NotNull := ⟨rfl⟩

instance : filesystemFields.Exact := by
  unfold filesystemFields
  infer_instance

instance : sandboxFilesystem.Exact := Codec.exact_record (by decide)

instance : sandboxFilesystem.NotNull := ⟨rfl⟩

instance : ripgrepFields.Exact := by
  unfold ripgrepFields
  infer_instance

instance : sandboxRipgrep.Exact := Codec.exact_record (by decide)

instance : sandboxRipgrep.NotNull := ⟨rfl⟩

instance : sandboxFields.Exact := by
  unfold sandboxFields
  infer_instance

instance : sandboxSettings.Exact := Codec.exact_openRecord (by decide)

instance : sandboxSettings.NotNull := ⟨rfl⟩

end NodeSchema

end HarnessAgent
