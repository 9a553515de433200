import HarnessAgent.Executor.NodeExecution
import HarnessAgent.Executor.RepeatedIds
import HarnessAgent.Schema.WorkflowDefinition

/-! # Start of a validated workflow

The executor places the nodes of a workflow in layers and doubles the delay between the
attempts of a node. Both rely on what was checked when the workflow was loaded.
-/

namespace HarnessAgent

open TopologicalLayers NodeEnvironment

/-- The milliseconds before the first retry. -/
def retryDelayMs (node : DagNode) : Nat :=
  match node.base.retry.bind StepRetryConfig.delayMs with
  | some delay => delay.toUnsigned 64
  | none => 3000

/-- The delay after a failed attempt, or nothing if the power of two does not fit into 64
bits; the product stops at the bound of the type. -/
def backoffMs (node : DagNode) (attempt : Nat) : Option Nat :=
  if 2 ^ attempt < 2 ^ 64 then some (min (retryDelayMs node * 2 ^ attempt) (2 ^ 64 - 1)) else none

structure StartsSafely (nodes : List DagNode) : Prop where
  layers : ∃ layers, buildTopologicalLayers nodes = .ok layers
  delays : ∀ node ∈ nodes, node.isAi = true →
    ∀ attempt < (getEffectiveNodeRetryConfig node).maxRetries, (backoffMs node attempt).isSome

theorem isSome_backoffMs {node : DagNode} {attempt : Nat} :
    (backoffMs node attempt).isSome ↔ attempt < 64 := by
  rw [backoffMs]
  by_cases small : attempt < 64
  · have fits : 2 ^ attempt < 2 ^ 64 := Nat.pow_lt_pow_right (by omega) small
    rw [if_pos fits]
    exact iff_of_true rfl small
  · have large : ¬2 ^ attempt < 2 ^ 64 := by
      have bound : 2 ^ 64 ≤ 2 ^ attempt := Nat.pow_le_pow_right (by omega) (by omega)
      omega
    rw [if_neg large]
    exact iff_of_false Bool.false_ne_true small

theorem backoffs_iff {node : DagNode} :
    (∀ attempt < (getEffectiveNodeRetryConfig node).maxRetries, (backoffMs node attempt).isSome) ↔
      (getEffectiveNodeRetryConfig node).maxRetries ≤ 64 := by
  constructor
  · intro delays
    by_contra many
    have last := isSome_backoffMs.mp (delays 64 (by omega))
    omega
  · intro few attempt bound
    exact isSome_backoffMs.mpr (by omega)

/-- A definition that is accepted starts safely exactly when its dependencies are balanced
and no node is tried more than 65 times, neither of which is checked. -/
theorem validatedWorkflow_starts_iff (definition : WorkflowDefinition) :
    (validateWorkflowDefinition definition = [] → StartsSafely definition.dagNodes) ↔
      (validateWorkflowDefinition definition = [] →
        Balanced definition.dagNodes ∧
          ∀ node ∈ definition.dagNodes, node.isAi = true →
            (getEffectiveNodeRetryConfig node).maxRetries ≤ 64) := by
  apply imp_congr_right
  intro _
  constructor
  · intro starts
    refine ⟨(build_ok_iff_balanced _).mp starts.layers, ?_⟩
    intro node member isAi
    exact backoffs_iff.mp (starts.delays node member isAi)
  · rintro ⟨balanced, retries⟩
    constructor
    · exact (build_ok_iff_balanced _).mpr balanced
    · intro node member isAi
      exact backoffs_iff.mpr (retries node member isAi)

namespace WorkflowStart

def promptNode (id : String) (dependsOn : List String) (retry : Option StepRetryConfig) : DagNode :=
  .prompt { base := { id, dependsOn, retry }, prompt := "p" }

def definition (nodes : List DagNode) : WorkflowDefinition where
  base := { name := "w", description := "d" }
  nodes := nodes.map fun node => { node }

abbrev Prompts := List (String × List String × Option StepRetryConfig)

def ofPrompts (prompts : Prompts) : WorkflowDefinition :=
  definition (prompts.map fun prompt => promptNode prompt.1 prompt.2.1 prompt.2.2)

/-- A definition of prompts with identifiers is accepted, whatever they depend on and however
often they are tried. -/
theorem validated (named : ∀ prompt ∈ prompts, prompt.1.isBlank = false) :
    validateWorkflowDefinition (ofPrompts prompts) = [] := by
  rw [validateWorkflowDefinition_eq_nil]
  refine ⟨rfl, fun node member => ?_⟩
  simp only [ofPrompts, definition, List.map_map, List.mem_map] at member
  rcases member with ⟨prompt, promptMember, rfl⟩
  have blank : (promptNode prompt.1 prompt.2.1 prompt.2.2).base.id.isBlank = false :=
    named prompt promptMember
  unfold validateDagNode
  simp only [Function.comp_apply, blank]
  rfl

/-- Two nodes, the second of which is retried three times. -/
def sound : Prompts := [("a", [], none), ("b", ["a"], some { maxAttempts := 3 })]

def cyclic : Prompts := [("a", ["b"], none), ("b", ["a"], none)]

/-- Two nodes of one name release what waits for them twice. -/
def repeated : Prompts := [("a", [], none), ("a", [], none), ("b", ["a"], none)]

/-- As many attempts as eight bits can hold. -/
def stubborn : Prompts := [("a", [], some { maxAttempts := 255 })]

end WorkflowStart

open WorkflowStart

theorem validatedWorkflow_starts_iff_sound :
    validateWorkflowDefinition (ofPrompts sound) = [] ∧
      StartsSafely (ofPrompts sound).dagNodes := by
  have accepted : validateWorkflowDefinition (ofPrompts sound) = [] := validated (by decide)
  have balanced : Balanced (ofPrompts sound).dagNodes := (build_ok_iff_balanced _).mp ⟨_, rfl⟩
  have starts := (validatedWorkflow_starts_iff (ofPrompts sound)).mpr fun _ => ⟨balanced, by decide⟩
  exact ⟨accepted, starts accepted⟩

/-- A cycle, a repeated identifier and a limit of 255 attempts are accepted; the first two
panic when the layers are built, the last when the delays are doubled. -/
theorem validatedWorkflow_panics :
    (validateWorkflowDefinition (ofPrompts cyclic) = [] ∧
      buildTopologicalLayers (ofPrompts cyclic).dagNodes = .error .runtimeCycle ∧
      ¬StartsSafely (ofPrompts cyclic).dagNodes) ∧
    (validateWorkflowDefinition (ofPrompts repeated) = [] ∧
      buildTopologicalLayers (ofPrompts repeated).dagNodes = .error .subtractOverflow ∧
      ¬StartsSafely (ofPrompts repeated).dagNodes) ∧
    validateWorkflowDefinition (ofPrompts stubborn) = [] ∧
      ¬StartsSafely (ofPrompts stubborn).dagNodes := by
  have panics : ∀ {nodes : List DagNode} {panic : LayerPanic},
      buildTopologicalLayers nodes = .error panic → ¬StartsSafely nodes := by
    intro nodes panic failed starts
    rcases starts.layers with ⟨layers, built⟩
    rw [failed] at built
    cases built
  have cycle : buildTopologicalLayers (ofPrompts cyclic).dagNodes = .error .runtimeCycle := by
    decide
  have overflow : buildTopologicalLayers (ofPrompts repeated).dagNodes =
      .error .subtractOverflow := by decide
  refine ⟨⟨validated (by decide), cycle, panics cycle⟩,
    ⟨validated (by decide), overflow, panics overflow⟩, validated (by decide), ?_⟩
  intro starts
  have few := backoffs_iff.mp
    (starts.delays _ (List.mem_singleton_self (promptNode "a" [] (some { maxAttempts := 255 }))) rfl)
  exact absurd few (by decide)

end HarnessAgent
