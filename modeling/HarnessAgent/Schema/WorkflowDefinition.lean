import HarnessAgent.Foundation.Text
import HarnessAgent.Schema.DagNode
import Mathlib.Data.List.AList

/-! # Workflow definitions

A definition as it is loaded, and the checks of its values. All errors are collected; only a
node without an identifier is not checked further.
-/

namespace HarnessAgent

inductive ThinkingConfig
  | adaptive
  | enabled (budgetTokens : Option Nat)
  | disabled
  deriving DecidableEq, Repr

structure AgentDefinition where
  description : String
  prompt : String
  maxTurns : Option Nat := none
  deriving DecidableEq, Repr

structure NodeSettings where
  thinking : Option ThinkingConfig := none
  mcp : Option String := none
  skills : Option (List String) := none
  agents : Option (AList fun _ : String => AgentDefinition) := none
  maxBudgetUsd : Option F64 := none
  systemPrompt : Option String := none
  fallbackModel : Option String := none
  betas : Option (List String) := none
  idleTimeout : Option F64 := none

structure NodeDefinition where
  node : DagNode
  settings : NodeSettings := {}

structure WorkflowBase where
  name : String
  description : String
  provider : Option String := none
  fallbackModel : Option String := none
  tags : Option (List String) := none
  deriving DecidableEq, Repr

structure WorkflowDefinition where
  base : WorkflowBase
  nodes : List NodeDefinition

def WorkflowDefinition.dagNodes (definition : WorkflowDefinition) : List DagNode :=
  definition.nodes.map NodeDefinition.node

inductive DagNodeValidationError
  | emptyId
  | invalidCommandName (name : String)
  | timeoutNotPositive
  | loopWithRetry
  | idleTimeoutNotPositive
  | invalidAgentId (id : String)
  | thinkingBudgetNotPositive
  | agentMaxTurnsNotPositive (id : String)
  | agentDescriptionEmpty (id : String)
  | agentPromptEmpty (id : String)
  | approvalMaxAttemptsBelow1
  | approvalMaxAttemptsAbove10
  | maxBudgetUsdNotPositive
  | betasEmpty
  | betasElementEmpty
  | skillsEmpty
  | skillsElementEmpty
  | agentsEmpty
  | providerBlank
  | mcpEmpty
  | systemPromptEmpty
  | fallbackModelEmpty
  | outputTypeEmpty
  deriving DecidableEq, Repr

namespace Validation

def check {ε : Type} (fails : Bool) (error : ε) : List ε :=
  if fails then [error] else []

def checkSome {α ε : Type} (value : Option α) (fails : α → Bool) (error : ε) : List ε :=
  match value with
  | some value => check (fails value) error
  | none => []

def isEmpty (text : String) : Bool := text = ""

def checkElements {ε : Type} (values : Option (List String)) (empty emptyElement : ε) : List ε :=
  match values with
  | none => []
  | some [] => [empty]
  | some values => values.flatMap fun value => check (isEmpty value) emptyElement

/-- A time or an amount that is not above zero, or is not a number of finite size. -/
def notPositive (number : F64) : Bool :=
  number.lessEqual F64.zero || !number.isFinite

def isAgentIdPart (character : Char) : Bool :=
  (0x61 ≤ character.toNat && character.toNat ≤ 0x7A) || Text.isAsciiDigit character

/-- What follows the first character: each hyphen stands before a letter or a digit. -/
def isAgentIdRest : List Char → Bool
  | [] => true
  | character :: rest =>
      if character = '-' then
        match rest with
        | next :: _ => isAgentIdPart next && isAgentIdRest rest
        | [] => false
      else isAgentIdPart character && isAgentIdRest rest

def isValidAgentId (id : String) : Bool :=
  match id.toList with
  | [] => false
  | first :: rest => isAgentIdPart first && isAgentIdRest rest

def isValidCommandName (name : String) : Bool :=
  !(isEmpty name || name.toList.head? = some '.') &&
    !(name.mentions "/" || name.mentions "\\" || name.mentions "..")

def checkAgent (id : String) (agent : AgentDefinition) : List DagNodeValidationError :=
  check (!isValidAgentId id) (.invalidAgentId id) ++
    check (isEmpty agent.description) (.agentDescriptionEmpty id) ++
    check (isEmpty agent.prompt) (.agentPromptEmpty id) ++
    check (agent.maxTurns = some 0) (.agentMaxTurnsNotPositive id)

def checkAgents (agents : Option (AList fun _ : String => AgentDefinition)) :
    List DagNodeValidationError :=
  match agents with
  | none => []
  | some agents =>
      check (agents.entries = []) .agentsEmpty ++
        agents.entries.flatMap fun entry => checkAgent entry.1 entry.2

def checkKind : DagNode → List DagNodeValidationError
  | .approval node =>
      match node.approval.onReject.bind ApprovalOnReject.maxAttempts with
      | some attempts =>
          if attempts < 1 then [.approvalMaxAttemptsBelow1]
          else check (10 < attempts) .approvalMaxAttemptsAbove10
      | none => []
  | .command node => check (!isValidCommandName node.command) (.invalidCommandName node.command)
  | .bash node => checkSome node.timeout notPositive .timeoutNotPositive
  | .script node => checkSome node.timeout notPositive .timeoutNotPositive
  | .loop node => check node.base.retry.isSome .loopWithRetry
  | .prompt _ => []
  | .cancel _ => []

end Validation

open Validation

def validateDagNode (definition : NodeDefinition) : List DagNodeValidationError :=
  let base := definition.node.base
  let settings := definition.settings
  if base.id.isBlank then [.emptyId]
  else
    check (settings.thinking = some (.enabled (some 0))) .thinkingBudgetNotPositive ++
      checkSome base.provider String.isBlank .providerBlank ++
      checkSome settings.mcp isEmpty .mcpEmpty ++
      checkElements settings.skills .skillsEmpty .skillsElementEmpty ++
      checkAgents settings.agents ++
      checkSome settings.maxBudgetUsd (·.lessEqual F64.zero) .maxBudgetUsdNotPositive ++
      checkSome settings.systemPrompt isEmpty .systemPromptEmpty ++
      checkSome settings.fallbackModel isEmpty .fallbackModelEmpty ++
      checkElements settings.betas .betasEmpty .betasElementEmpty ++
      checkSome base.outputType isEmpty .outputTypeEmpty ++
      checkKind definition.node ++
      checkSome settings.idleTimeout notPositive .idleTimeoutNotPositive

inductive WorkflowValidationError
  | nameEmpty
  | descriptionEmpty
  | providerBlank
  | fallbackModelEmpty
  | tagsElementEmpty
  | nodeError (index : Nat) (errors : List DagNodeValidationError)
  deriving DecidableEq, Repr

def validateWorkflowBase (base : WorkflowBase) : List WorkflowValidationError :=
  check (isEmpty base.name) .nameEmpty ++
    check (isEmpty base.description) .descriptionEmpty ++
    checkSome base.provider String.isBlank .providerBlank ++
    checkSome base.fallbackModel isEmpty .fallbackModelEmpty ++
    (base.tags.getD []).flatMap fun tag => check (isEmpty tag) .tagsElementEmpty

def validateWorkflowDefinition (definition : WorkflowDefinition) :
    List WorkflowValidationError :=
  validateWorkflowBase definition.base ++
    definition.nodes.zipIdx.flatMap fun entry =>
      match validateDagNode entry.1 with
      | [] => []
      | errors => [.nodeError entry.2 errors]

theorem validateWorkflowDefinition_eq_nil {definition : WorkflowDefinition} :
    validateWorkflowDefinition definition = [] ↔
      validateWorkflowBase definition.base = [] ∧
        ∀ node ∈ definition.nodes, validateDagNode node = [] := by
  rw [validateWorkflowDefinition, List.append_eq_nil_iff, List.flatMap_eq_nil_iff]
  have single : ∀ entry : NodeDefinition × Nat,
      ((match validateDagNode entry.1 with
        | [] => []
        | errors => [WorkflowValidationError.nodeError entry.2 errors]) = []) ↔
        validateDagNode entry.1 = [] := by
    intro entry
    cases validateDagNode entry.1 with
    | nil => simp
    | cons error rest => simp
  constructor
  · rintro ⟨base, nodes⟩
    refine ⟨base, fun node member => ?_⟩
    rcases List.mem_iff_getElem?.mp member with ⟨index, found⟩
    have entry : (node, index) ∈ definition.nodes.zipIdx :=
      List.mem_zipIdx_iff_getElem?.mpr found
    exact (single (node, index)).mp (nodes _ entry)
  · rintro ⟨base, nodes⟩
    refine ⟨base, fun entry member => ?_⟩
    rw [single]
    exact nodes entry.1 (List.fst_mem_of_mem_zipIdx member)

end HarnessAgent
