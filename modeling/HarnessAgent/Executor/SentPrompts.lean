import HarnessAgent.Executor.PromptSubstitution
import HarnessAgent.Executor.ReferenceFailure
import HarnessAgent.Executor.RunCost
import HarnessAgent.Executor.StructuredOutput

/-! # The prompts that nodes send

Whatever a node sends to a provider is made from its own template, in the way of its kind, or
is such a prompt with corrections.
-/

namespace HarnessAgent

namespace Substitution

open AiNode NodeEnvironment

def Corrects (first prompt : String) : Prop :=
  ∃ corrections : List (List String), corrections.length ≤ structuredOutputMaxReasks ∧
    prompt = corrections.foldl buildReaskPrompt first

/-- A prompt that a node may send. A loop does not ask again within an iteration. -/
def Prompts (environment : NodeEnvironment) (nodeOutputs : NodeOutputs) (prompt : String) :
    DagNode → Prop
  | .loop node => ∃ input output,
      promptSent environment.serde environment.canWrite nodeOutputs .iteration
        { environment.workflowVariables with
          loopUserInput := some input, loopPrevOutput := some output }
        node.loopConfig.prompt = .ok prompt
  | .approval node => ∃ onReject reason first, node.approval.onReject = some onReject ∧
      environment.rejectionReason node = some reason ∧
      promptSent environment.serde environment.canWrite nodeOutputs .rejection
        { environment.workflowVariables with rejectionReason := some reason }
        onReject.prompt = .ok first ∧
      Corrects first prompt
  | node => ∃ template first, environment.rawPrompt node = .ok template ∧
      promptSent environment.serde environment.canWrite nodeOutputs .node
        environment.workflowVariables template = .ok first ∧
      Corrects first prompt

theorem corrects_of_asked {invocation : ProvidedInvocation} {first : String}
    (asked : Asked invocation.environment first prompt) : Corrects first prompt := by
  rcases asked with rfl | ⟨attempt, node, session, again⟩
  · exact ⟨[], Nat.zero_le _, rfl⟩
  · rcases @prompts_reaskLoop (invocation.settings attempt node) node.id session
      (maxReasks (invocation.settings attempt node)) 0 first
      (resolvedPass invocation.environment node) with ⟨later, prompts, corrected⟩
    have same := (invocation.prompts attempt node session first).symm.trans prompts
    rw [(List.cons.inj same).2] at again
    rcases corrected prompt again with ⟨corrections, bound, written⟩
    exact ⟨corrections, bound.trans (ProvidedInvocation.maxReasks_le _), written⟩

variable {environment : NodeEnvironment} {prompt : String}

theorem query_retryLoop
    (asked : Use.query prompt ∈ (retryLoop config execute attempt remaining).uses) :
    ∃ attempt, Use.query prompt ∈ (execute attempt).uses := by
  refine retryLoop_rule (motive := fun execution => Use.query prompt ∈ execution.uses →
    ∃ attempt, Use.query prompt ∈ (execute attempt).uses) ?_ ?_ attempt remaining asked
  · intro attempt here
    exact ⟨attempt, here⟩
  · intro attempt later found member
    exact (List.mem_append.mp member).elim (fun here => ⟨attempt, here⟩) found

section

variable {frame : LoopFrame} {iteration : Nat} {state : LoopState}

theorem query_loopStep
    (asked : Use.query prompt ∈ (environment.loopStep frame iteration state).uses) :
    Use.query prompt ∈ state.uses ∨ environment.loopPrompt frame iteration state = .ok prompt := by
  rcases @loopStep_cases environment frame iteration state with
    ⟨-, execution, ended, kept, -⟩ | ⟨executed, tests, sent, -, others, ended⟩
  · rw [ended] at asked
    exact .inl (kept ▸ asked)
  · generalize environment.loopStep frame iteration state = step at asked ended
    have recorded : Use.query prompt ∈ state.uses ++ [.query executed.prompt] ++ tests := by
      cases ended with
      | continues kept | fails kept | completes kept => exact kept ▸ asked
      | pauses recorded => simpa [LoopStep.uses, recorded] using asked
    rcases List.mem_append.mp recorded with earlier | tested
    · refine (List.mem_append.mp earlier).imp_right fun own => ?_
      cases List.mem_singleton.mp own
      rw [loopIteration] at sent
      split at sent
      · cases sent
      · next found =>
          cases sent
          exact found
    · cases (others _ tested).1

theorem query_loopIterations
    (asked : Use.query prompt ∈ (environment.loopIterations frame remaining iteration state).uses) :
    Use.query prompt ∈ state.uses ∨
      ∃ iteration state, environment.loopPrompt frame iteration state = .ok prompt := by
  induction remaining generalizing iteration state with
  | zero => exact .inl asked
  | succ remaining induction =>
      rw [loopIterations] at asked
      have here := @query_loopStep environment prompt frame iteration state
      cases step : environment.loopStep frame iteration state with
      | ends execution =>
          rw [step] at asked here
          exact (here asked).imp_right fun own => ⟨_, _, own⟩
      | continues next =>
          rw [step] at asked here
          rcases induction asked with earlier | later
          · exact (here earlier).imp_right fun own => ⟨_, _, own⟩
          · exact .inr later

end

/-- Every prompt that a node sends to a provider, in any attempt, iteration or answer to a
rejection, is made from the template of the node. -/
theorem prompts_of_query (invocation : ProvidedInvocation) {node : DagNode} {context : TaskContext}
    (asked : Use.query prompt ∈ (executeNode invocation.environment node context).uses) :
    Prompts invocation.environment context.allOutputs prompt node := by
  have ai : ∀ node, Use.query prompt ∈ (invocation.environment.executeAiNode node context).uses →
      Prompts invocation.environment context.allOutputs prompt node := by
    intro node asked
    rcases invocation.environment.executeAiNode_cases node context with
      ⟨error, failed⟩ | ⟨_, _, -, executed⟩
    · rw [failed] at asked
      cases asked
    · rw [executed] at asked
      rcases query_retryLoop asked with ⟨attempt, asked⟩
      rcases query_executeNodeInternal asked with ⟨template, first, read, sent, again⟩
      cases node with
      | loop | approval => cases read
      | _ => exact ⟨template, first, read, sent, corrects_of_asked again⟩
  cases node with
  | command node | prompt node => exact ai _ asked
  | loop node =>
      rw [executeNode, executeLoopNode] at asked
      split at asked
      · cases asked
      · dsimp only at asked
        split at asked
        · rcases query_loopIterations asked with none | ⟨iteration, state, own⟩
          · cases none
          · have sent := promptSent_of_loopPrompt own
            dsimp only [loopFrame] at sent
            exact ⟨_, _, sent⟩
        · cases asked
  | approval node =>
      rw [executeNode, executeApprovalNode] at asked
      split at asked
      · next reason onReject rejected stated =>
          split at asked
          · cases List.mem_singleton.mp asked
          · rcases query_executeReject asked with ⟨first, sent, again⟩
            exact ⟨onReject, reason, first, stated, rejected, sent, corrects_of_asked again⟩
      · cases query_of_approvalGate asked
  | bash node =>
      rw [executeNode] at asked
      exact absurd rfl (List.countP_eq_zero.mp (countP_isQuery_executeBashNode _ node _) _ asked)
  | script node =>
      rw [executeNode] at asked
      exact absurd rfl (List.countP_eq_zero.mp (countP_isQuery_executeScriptNode _ node _) _ asked)
  | cancel node => cases List.mem_singleton.mp asked

/-- The first answer has no structured output, so that the provider is asked again. -/
def reviewInvocation : ProvidedInvocation :=
  Invocation.provided
    { environment :=
        { quietEnvironment with
          isRegistered := fun _ => true
          resolveProvider := fun _ => .ok "pi" }
      prior := ∅
      statusAfterLayer := fun _ => .ok (some .running)
      statusAtEnd := .ok (some .running) }
    fun _ _ => verdictSettings.validatedBy verdictLibrary

theorem prompts_of_query_reask :
    Prompts reviewInvocation.environment ∅
      (buildReaskPrompt "Summarize" ["no JSON object was found in the response"]) promptNode :=
  @prompts_of_query _ reviewInvocation promptNode ⟨∅, none, false⟩ (by decide +kernel)

end Substitution

end HarnessAgent
