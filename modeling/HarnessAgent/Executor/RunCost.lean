import HarnessAgent.Executor.AiNode
import HarnessAgent.Executor.LoopLife
import HarnessAgent.Executor.NodeCounts
import HarnessAgent.Executor.SessionThread

/-! # The cost of a run

A provider reports what an answer has cost. The costs get from the answers to the result of
a node, from the results to the total of one run of the executor, and from there to what is
stored when the run completes. A gate keeps what its prompt has cost to itself, and a
resumed run starts from nothing.
-/

namespace HarnessAgent

open DagWorkflow AiNode NodeEnvironment

/-! ## Sums -/

namespace AiNode

def addCost (total : F64) : Option F64 → F64
  | some cost => total + cost
  | none => total

theorem foldl_addCost (reported : List (Option F64)) (total : F64) :
    reported.foldl addCost total = (reported.filterMap id).foldl (· + ·) total := by
  induction reported generalizing total with
  | nil => rfl
  | cons cost rest induction =>
      cases cost with
      | none => exact induction total
      | some cost => exact induction (total + cost)

/-- Adding up from nothing gives the sum of the costs. -/
theorem foldl_addCost_zero (reported : List (Option F64)) :
    reported.foldl addCost F64.zero = (totalCost reported).getD F64.zero := by
  rw [foldl_addCost, totalCost]
  cases reported.filterMap id with
  | nil => rfl
  | cons cost rest => rfl

theorem totalCost_append_of_unreported {reported : List (Option F64)}
    (unreported : ∀ cost ∈ earlier, cost = none) :
    totalCost (earlier ++ reported) = totalCost reported := by
  have nothing : earlier.filterMap id = [] := List.filterMap_eq_nil_iff.mpr unreported
  rw [totalCost, totalCost, List.filterMap_append, nothing, List.nil_append]

theorem totalCost_filter {α : Type} {cost : α → Option F64} {keep : α → Bool}
    {items : List α} (dropped : ∀ item ∈ items, keep item = false → cost item = none) :
    totalCost ((items.filter keep).map cost) = totalCost (items.map cost) := by
  have same : ((items.filter keep).map cost).filterMap id = (items.map cost).filterMap id := by
    induction items with
    | nil => rfl
    | cons item rest induction =>
        have later := induction fun other member => dropped other (List.mem_cons_of_mem _ member)
        cases kept : keep item with
        | true =>
            rw [List.filter_cons_of_pos kept, List.map_cons, List.map_cons, List.filterMap_cons,
              List.filterMap_cons, later]
        | false =>
            rw [List.filter_cons_of_neg (by rw [kept]; exact Bool.false_ne_true), List.map_cons,
              List.filterMap_cons, dropped item List.mem_cons_self kept, later]
            rfl
  rw [totalCost, totalCost, same]

theorem finishPass_failed {settings : AiSettings} {pass : StreamPass}
    (failed : pass.streamError = some error)
    (returned : (finishPass settings nodeId pass).result = some result) :
    result.output.state = .failed := by
  rw [finishPass, failed] at returned
  dsimp only at returned
  split at returned
  · cases returned
    rfl
  · cases returned
    rfl

end AiNode

/-- The result of an attempt accounts for the costs that were reported to it: it has their
sum unless it is a failure, and it has no cost if none was reported. -/
structure NodeResult.Charges (result : NodeResult) (costs : List (Option F64)) : Prop where
  completed : result.output.state ≠ .failed → result.cost = totalCost costs
  unreported : (∀ cost ∈ costs, cost = none) → result.cost = none

namespace NodeResult.Charges

variable {costs : List (Option F64)} {result : NodeResult}

theorem of_eq (same : result.cost = totalCost costs) : result.Charges costs where
  completed := fun _ => same
  unreported := fun none => same.trans (totalCost_eq_none.mpr none)

theorem of_failed (failed : result.output.state = .failed) (free : result.cost = none) :
    result.Charges costs where
  completed := fun succeeded => absurd failed succeeded
  unreported := fun _ => free

theorem cost_eq (charges : result.Charges costs)
    (kept : result.output.state = .failed → ∀ cost ∈ costs, cost = none) :
    result.cost = totalCost costs := by
  by_cases failed : result.output.state = .failed
  · rw [charges.unreported (kept failed), totalCost_eq_none.mpr (kept failed)]
  · exact charges.completed failed

end NodeResult.Charges

/-! ## Providers -/

def AiNode.resolvedPass (environment : NodeEnvironment) (node : DagNode) : StreamPass :=
  startedPass (.nodeStarted (nodeCommand node)
    (match environment.resolveProvider node with
    | .ok provider => provider
    | .error _ => ""))

/-- The exchanges of an attempt of a node, and its end, from the prompt of its first query. -/
def AiNode.asking (settings : AiSettings) (environment : NodeEnvironment) (node : DagNode)
    (session : Option String) (prompt : String) : AiExecution :=
  reaskLoop settings node.id session (maxReasks settings) 0 prompt (resolvedPass environment node)

structure ProvidedInvocation extends Invocation where
  settings : Nat → DagNode → AiSettings
  results : ∀ attempt node session prompt,
    (asking (settings attempt node) environment node session prompt).result =
      some (environment.stream attempt node session prompt).result
  prompts : ∀ attempt node session prompt,
    ((asking (settings attempt node) environment node session prompt).exchanges.map
        fun made => made.query.prompt) =
      prompt :: (environment.stream attempt node session prompt).reasks

structure Attempt where
  failed : Bool
  queries : Nat
  costs : List (Option F64)

namespace ProvidedInvocation

variable (invocation : ProvidedInvocation)

def promptExchanges (attempt : Nat) (node : DagNode) (session : Option String)
    (prompt : String) : List Exchange :=
  (asking (invocation.settings attempt node) invocation.environment node session
    prompt).exchanges

def exchangeCost (made : Exchange) : Option F64 :=
  reportedCost made.stream.arrivals

theorem stream_charges (attempt : Nat) (node : DagNode) (session : Option String)
    (prompt : String) :
    (invocation.environment.stream attempt node session prompt).result.Charges
      ((invocation.promptExchanges attempt node session prompt).map exchangeCost) := by
  have returned := invocation.results attempt node session prompt
  rcases @reaskLoop_endsAfter (invocation.settings attempt node) node.id session
    (maxReasks (invocation.settings attempt node)) 0 prompt
    (resolvedPass invocation.environment node) [] rfl rfl rfl with ⟨earlier, last, ends⟩
  have reported : (invocation.promptExchanges attempt node session prompt).map exchangeCost =
      (earlier ++ [last]).map StreamPass.passCost := by
    rw [← ends.passes, List.map_map]
    apply List.map_congr_left
    intro made member
    exact (reaskLoop_exchanges (motive := fun made => made.pass.passCost = exchangeCost made)
      (fun _ _ _ => passCost_runStreamPass _ _) _ _ _ _ made member).symm
  rw [reported]
  rw [asking, ends.result] at returned
  rcases finishPass_cost (invocation.settings attempt node) node.id last with
    ⟨result, found, cost⟩
  rw [returned] at found
  cases found
  have accumulated := ends.cost
  cases failed : last.streamError with
  | none =>
      rw [failed] at cost accumulated
      exact .of_eq (cost.trans accumulated)
  | some error =>
      rw [failed] at cost
      constructor
      · intro succeeded
        exact absurd (finishPass_failed failed returned) succeeded
      · intro unreported
        rw [cost]
        apply unreported
        simp

/-! ## Attempts of a node -/

def attemptExchanges (node : DagNode) (provider : String) (nodeOutputs : NodeOutputs)
    (session : Option String) (attempt : Nat) : List Exchange :=
  match firstPrompt invocation.environment node provider nodeOutputs with
  | .error _ => []
  | .ok prompt => invocation.promptExchanges attempt node session prompt

def internalAttempt (node : DagNode) (provider : String) (nodeOutputs : NodeOutputs)
    (session : Option String) (attempt : Nat) : Attempt :=
  let execution := invocation.environment.executeNodeInternal node provider nodeOutputs session
    attempt
  let exchanges := invocation.attemptExchanges node provider nodeOutputs session attempt
  { failed := execution.result.output.state = .failed,
    queries := exchanges.length,
    costs := exchanges.map exchangeCost }

theorem executeNodeInternal_attempt (node : DagNode) (provider : String)
    (nodeOutputs : NodeOutputs) (session : Option String) (attempt : Nat) :
    (∃ error, invocation.environment.executeNodeInternal node provider nodeOutputs session
        attempt = .fail error ∧
      invocation.attemptExchanges node provider nodeOutputs session attempt = []) ∨
    ∃ prompt,
      firstPrompt invocation.environment node provider nodeOutputs = .ok prompt ∧
      invocation.environment.executeNodeInternal node provider nodeOutputs session attempt =
        { result := (invocation.environment.stream attempt node session prompt).result,
          uses := (invocation.promptExchanges attempt node session prompt).map
            fun made => .query made.query.prompt } ∧
      invocation.attemptExchanges node provider nodeOutputs session attempt =
        invocation.promptExchanges attempt node session prompt := by
  have asked (prompt : String) :
      ((invocation.promptExchanges attempt node session prompt).map
        fun made => Use.query made.query.prompt) =
      Use.query prompt ::
        (invocation.environment.stream attempt node session prompt).reasks.map .query := by
    have prompts := congrArg (List.map Use.query)
      (invocation.prompts attempt node session prompt)
    rw [List.map_map, List.map_cons] at prompts
    exact prompts
  unfold attemptExchanges firstPrompt NodeEnvironment.executeNodeInternal
  cases invocation.environment.rawPrompt node with
  | error error => exact .inl ⟨_, rfl, rfl⟩
  | ok template =>
      simp only
      cases buildPromptWithContext invocation.environment.workflowVariables template with
      | error error => exact .inl ⟨_, rfl, rfl⟩
      | ok substituted =>
          simp only
          by_cases registered : invocation.environment.isRegistered provider = true
          · rw [if_pos registered, if_pos registered]
            refine .inr ⟨_, rfl, ?_, rfl⟩
            rw [asked]
          · rw [if_neg registered, if_neg registered]
            exact .inl ⟨_, rfl, rfl⟩

theorem internalAttempt_charges (node : DagNode) (provider : String) (nodeOutputs : NodeOutputs)
    (session : Option String) (attempt : Nat) :
    (invocation.environment.executeNodeInternal node provider nodeOutputs session
      attempt).result.Charges
      (invocation.internalAttempt node provider nodeOutputs session attempt).costs := by
  unfold internalAttempt
  simp only
  rcases invocation.executeNodeInternal_attempt node provider nodeOutputs session attempt with
    ⟨error, failed, -⟩ | ⟨prompt, -, executed, exchanges⟩
  · rw [failed]
    exact .of_failed rfl rfl
  · rw [executed, exchanges]
    exact invocation.stream_charges attempt node session prompt

theorem countP_isQuery_executeNodeInternal (node : DagNode) (provider : String)
    (nodeOutputs : NodeOutputs) (session : Option String) (attempt : Nat) :
    (invocation.environment.executeNodeInternal node provider nodeOutputs session
      attempt).uses.countP Use.isQuery =
      (invocation.internalAttempt node provider nodeOutputs session attempt).queries := by
  unfold internalAttempt
  rcases invocation.executeNodeInternal_attempt node provider nodeOutputs session attempt with
    ⟨error, failed, none⟩ | ⟨prompt, -, executed, exchanges⟩
  · rw [failed, none]
    rfl
  · rw [executed, exchanges, List.countP_map]
    exact List.countP_eq_length.mpr fun _ _ => rfl

end ProvidedInvocation

namespace NodeEnvironment

def retryAttempts (config : RetryConfig) (execute : Nat → Execution) : Nat → Nat → List Nat
  | attempt, 0 => [attempt]
  | attempt, remaining + 1 =>
      match (execute attempt).result.output with
      | .failed _ _ error _ _ =>
          if shouldRetry config error then
            attempt :: retryAttempts config execute (attempt + 1) remaining
          else [attempt]
      | _ => [attempt]

theorem retryLoop_last (config : RetryConfig) (execute : Nat → Execution)
    (attempt remaining : Nat) :
    ∃ earlier last, retryAttempts config execute attempt remaining = earlier ++ [last] ∧
      (∀ number ∈ earlier, (execute number).result.output.state = .failed) ∧
      (retryLoop config execute attempt remaining).result = (execute last).result := by
  induction remaining generalizing attempt with
  | zero => exact ⟨[], attempt, rfl, List.forall_mem_nil _, rfl⟩
  | succ remaining induction =>
      have once : ∃ earlier last, [attempt] = earlier ++ [last] ∧
          (∀ number ∈ earlier, (execute number).result.output.state = .failed) ∧
          (execute attempt).result = (execute last).result :=
        ⟨[], attempt, rfl, List.forall_mem_nil _, rfl⟩
      unfold retryAttempts retryLoop
      simp only
      cases returned : (execute attempt).result.output with
      | failed text session error structured fields =>
          simp only
          split_ifs
          · rcases induction (attempt + 1) with ⟨earlier, last, made, before, result⟩
            refine ⟨attempt :: earlier, last, ?_, ?_, result⟩
            · rw [made]
              rfl
            · intro number member
              rcases List.mem_cons.mp member with rfl | member
              · rw [returned]
                rfl
              · exact before number member
          · exact once
      | completed => exact once
      | running => exact once
      | pending => exact once
      | skipped => exact once

/-- Attempts are numbered one after the other, and there are as many as the retries allow. -/
theorem retryAttempts_isPrefix (config : RetryConfig) (execute : Nat → Execution)
    (attempt remaining : Nat) :
    retryAttempts config execute attempt remaining <+: List.range' attempt (remaining + 1) := by
  induction remaining generalizing attempt with
  | zero => exact List.prefix_rfl
  | succ remaining induction =>
      have once : [attempt] <+: List.range' attempt (remaining + 1 + 1) := by
        rw [List.range'_succ]
        exact ⟨_, rfl⟩
      unfold retryAttempts
      split
      · split
        · rw [List.range'_succ]
          exact List.cons_prefix_cons.mpr ⟨rfl, induction (attempt + 1)⟩
        · exact once
      · exact once

theorem countP_isQuery_retryLoop (config : RetryConfig) (execute : Nat → Execution)
    (attempt remaining : Nat) :
    (retryLoop config execute attempt remaining).uses.countP Use.isQuery =
      ((retryAttempts config execute attempt remaining).map fun number =>
        (execute number).uses.countP Use.isQuery).sum := by
  induction remaining generalizing attempt with
  | zero => rfl
  | succ remaining induction =>
      unfold retryAttempts retryLoop
      simp only
      cases returned : (execute attempt).result.output with
      | failed text session error structured fields =>
          simp only
          split_ifs
          · rw [List.countP_append, induction, List.map_cons, List.sum_cons]
          · rfl
      | completed => rfl
      | running => rfl
      | pending => rfl
      | skipped => rfl

variable (environment : NodeEnvironment)

theorem countP_isQuery_executeBashNode (node : BashNode) (nodeOutputs : NodeOutputs) :
    (environment.executeBashNode node nodeOutputs).uses.countP Use.isQuery = 0 := by
  unfold executeBashNode
  split
  · rfl
  · rw [List.countP_eq_zero]
    intro use member
    simp only [bashUses, List.mem_append, List.mem_map, List.mem_singleton] at member
    rcases member with ⟨file, _, rfl⟩ | rfl
    · exact Bool.false_ne_true
    · exact Bool.false_ne_true

theorem countP_isQuery_executeScriptNode (node : ScriptNode) (nodeOutputs : NodeOutputs) :
    (environment.executeScriptNode node nodeOutputs).uses.countP Use.isQuery = 0 := by
  unfold executeScriptNode
  split
  · rfl
  · simp only
    split
    · rfl
    · rfl

theorem countP_isQuery_approvalGate (node : ApprovalNode) (nodeOutputs : NodeOutputs)
    (uses : List Use) :
    (environment.approvalGate node nodeOutputs uses).uses.countP Use.isQuery =
      uses.countP Use.isQuery := by
  unfold approvalGate
  simp only
  split
  · rfl
  · rw [List.countP_append]
    rfl

/-! ## Iterations of a loop -/

variable {state : LoopState}

theorem afterPass_cost (prompt : String) (pass : LoopPass) (known : state.cost = totalCost earlier) :
    (state.afterPass prompt pass).cost = totalCost (earlier ++ [pass.cost]) := by
  cases reported : pass.cost with
  | none =>
      simp only [LoopState.afterPass, reported]
      rw [totalCost_append_none, known]
  | some cost =>
      simp only [LoopState.afterPass, reported]
      rw [totalCost_append_some, known]

variable {costs : List (Option F64)}

theorem loopGate_charges (node : LoopNode) (message : String) (iteration : Nat)
    (known : state.cost = totalCost costs) :
    (environment.loopGate node message iteration state).result.Charges costs := by
  unfold loopGate
  simp only
  split_ifs
  · split
    · exact .of_failed rfl rfl
    · exact .of_eq known
  · exact .of_failed rfl rfl

def LoopStep.Charges (costs : List (Option F64)) : LoopStep → Prop
  | .ends execution => execution.result.Charges costs
  | .continues next => next.cost = totalCost costs

theorem finishIteration_charges (frame : LoopFrame) (iteration : Nat) (prevOutput : String)
    (pass : LoopPass) (known : after.cost = totalCost costs) :
    (environment.finishIteration frame iteration prevOutput pass after).Charges costs := by
  unfold finishIteration
  split
  · exact NodeResult.Charges.of_eq known
  · split_ifs
    · exact NodeResult.Charges.of_eq known
    · simp only
      split_ifs
      · exact NodeResult.Charges.of_eq known
      · split
        · exact loopGate_charges environment _ _ _ known
        · exact known

theorem loopStep_charges_of_error {frame : LoopFrame} {iteration : Nat}
    {failure : Option F64 × String} (known : state.cost = totalCost costs)
    (prompted : environment.loopPrompt frame iteration state = .error failure) :
    (environment.loopStep frame iteration state).Charges costs := by
  unfold loopStep
  rw [prompted]
  unfold loopPrompt at prompted
  split at prompted
  · cases prompted
    exact NodeResult.Charges.of_failed rfl rfl
  · rename_i status _
    by_cases goesOn : shouldContinueStreamingForStatus status = true
    · rw [if_pos goesOn] at prompted
      simp only at prompted
      split at prompted
      · cases prompted
        exact NodeResult.Charges.of_eq known
      · cases prompted
    · rw [if_neg goesOn] at prompted
      cases prompted
      exact NodeResult.Charges.of_failed rfl rfl

theorem loopIterations_charges (frame : LoopFrame) (remaining iteration : Nat)
    (state : LoopState) (earlier : List (Option F64)) (known : state.cost = totalCost earlier) :
    (environment.loopIterations frame remaining iteration state).result.Charges
      (earlier ++ (environment.loopTrace frame remaining iteration state).map
        fun executed => executed.pass.cost) := by
  induction remaining generalizing iteration state earlier with
  | zero =>
      apply NodeResult.Charges.of_eq
      rw [loopTrace, List.map_nil, List.append_nil]
      exact known
  | succ remaining induction =>
      rw [loopIterations, loopTrace, loopIteration]
      cases prompted : environment.loopPrompt frame iteration state with
      | error failure =>
          have charges := loopStep_charges_of_error environment known prompted
          simp only [List.map_nil, List.append_nil]
          cases step : environment.loopStep frame iteration state with
          | ends execution =>
              rw [step] at charges
              exact charges
          | continues next =>
              rw [loopStep, prompted] at step
              cases step
      | ok prompt =>
          have charges : (environment.loopStep frame iteration state).Charges
              (earlier ++ [(environment.loopPass iteration
                (if frame.node.loopConfig.freshContext || iteration = 1 then none
                else state.sessionId) prompt).cost]) := by
            unfold loopStep
            rw [prompted]
            apply finishIteration_charges
            exact afterPass_cost prompt _ known
          cases step : environment.loopStep frame iteration state with
          | ends execution =>
              rw [step] at charges
              exact charges
          | continues next =>
              rw [step] at charges
              have rest := induction (iteration + 1) next _ charges
              rw [List.append_assoc] at rest
              exact rest

theorem executeLoopNode_charges (node : LoopNode) (nodeOutputs : NodeOutputs) :
    (environment.executeLoopNode node nodeOutputs).result.Charges
      ((environment.executedIterations node nodeOutputs).map
        fun executed => executed.pass.cost) := by
  unfold executeLoopNode executedIterations
  cases environment.resolveProvider (.loop node) with
  | error error => exact .of_failed rfl rfl
  | ok provider =>
      simp only
      split_ifs
      · exact loopIterations_charges environment _ _ _ _ [] rfl
      · exact .of_failed rfl rfl

end NodeEnvironment

/-! ## Nodes -/

/-- A gate, which does not report what its prompt has cost. -/
def DagNode.isApproval : DagNode → Bool
  | .approval _ => true
  | _ => false

namespace ProvidedInvocation

variable (invocation : ProvidedInvocation)

def aiAttempts (node : DagNode) (context : TaskContext) : List Attempt :=
  let environment := invocation.environment
  match environment.resolveProvider node with
  | .error _ => []
  | .ok provider =>
      if environment.persistsSession node && !environment.sessionResume provider then []
      else
        let session :=
          (environment.storedSession node provider).or (sequentialSession node context)
        let config := getEffectiveNodeRetryConfig node
        (retryAttempts config
          (environment.executeNodeInternal node provider context.allOutputs session) 0
          config.maxRetries).map
            (invocation.internalAttempt node provider context.allOutputs session)

def rejectAttempts (node : ApprovalNode) (nodeOutputs : NodeOutputs) : List Attempt :=
  let environment := invocation.environment
  match environment.rejectionReason node, node.approval.onReject with
  | some reason, some onReject =>
      if environment.attemptsExhausted onReject then []
      else
        let values := { environment.workflowVariables with rejectionReason := some reason }
        match substituteWorkflowVariables values false onReject.prompt with
        | .error _ => []
        | .ok substituted =>
            let synthetic :=
              rejectNode node (environment.substitutePlain nodeOutputs substituted.prompt)
            match environment.resolveProvider synthetic with
            | .error _ => []
            | .ok provider => [invocation.internalAttempt synthetic provider nodeOutputs none 0]
  | _, _ => []

def attempts (node : DagNode) (context : TaskContext) : List Attempt :=
  match node with
  | .bash _ => []
  | .script _ => []
  | .cancel _ => []
  | .loop node =>
      [{ failed := (invocation.environment.executeLoopNode node
            context.allOutputs).result.output.state = .failed,
         queries := (invocation.environment.executedIterations node context.allOutputs).length,
         costs := (invocation.environment.executedIterations node context.allOutputs).map
            fun executed => executed.pass.cost }]
  | .approval node => invocation.rejectAttempts node context.allOutputs
  | node => invocation.aiAttempts node context

def consumed (node : DagNode) (context : TaskContext) : List (Option F64) :=
  (invocation.attempts node context).flatMap Attempt.costs

variable {invocation}

theorem aiAttempts_cases (node : DagNode) (context : TaskContext) :
    (∃ error, invocation.environment.executeAiNode node context = .fail error ∧
      invocation.aiAttempts node context = []) ∨
    ∃ provider session,
      invocation.environment.executeAiNode node context =
        retryLoop (getEffectiveNodeRetryConfig node)
          (invocation.environment.executeNodeInternal node provider context.allOutputs session)
          0 (getEffectiveNodeRetryConfig node).maxRetries ∧
      invocation.aiAttempts node context =
        (retryAttempts (getEffectiveNodeRetryConfig node)
          (invocation.environment.executeNodeInternal node provider context.allOutputs session)
          0 (getEffectiveNodeRetryConfig node).maxRetries).map
            (invocation.internalAttempt node provider context.allOutputs session) := by
  unfold aiAttempts
  simp only
  cases resolved : invocation.environment.resolveProvider node with
  | error error =>
      left
      rw [executeAiNode, resolved]
      exact ⟨error, rfl, rfl⟩
  | ok provider =>
      simp only
      by_cases persists : invocation.environment.persistsSession node = true
      · by_cases supported : invocation.environment.sessionResume provider = true
        · right
          rw [executeAiNode_eq invocation.environment context resolved fun _ => supported, supported,
            Bool.not_true, Bool.and_false, if_neg Bool.false_ne_true]
          exact ⟨_, _, rfl, rfl⟩
        · left
          rw [executeAiNode, resolved]
          simp only
          rw [if_pos persists, if_neg supported]
          rw [Bool.not_eq_true] at supported
          rw [persists, supported]
          exact ⟨_, rfl, rfl⟩
      · right
        rw [executeAiNode_eq invocation.environment context resolved fun held => absurd held persists]
        rw [Bool.not_eq_true] at persists
        rw [persists, Bool.false_and, if_neg Bool.false_ne_true]
        exact ⟨_, _, rfl, rfl⟩

theorem countP_isQuery_executeApprovalNode (node : ApprovalNode) (nodeOutputs : NodeOutputs) :
    (invocation.environment.executeApprovalNode node nodeOutputs).uses.countP Use.isQuery =
      ((invocation.rejectAttempts node nodeOutputs).map Attempt.queries).sum := by
  have gate := countP_isQuery_approvalGate invocation.environment node nodeOutputs
  unfold executeApprovalNode rejectAttempts
  simp only
  cases invocation.environment.rejectionReason node with
  | none => exact gate []
  | some reason =>
      cases node.approval.onReject with
      | none => exact gate []
      | some onReject =>
          simp only
          cases invocation.environment.attemptsExhausted onReject with
          | true => rfl
          | false =>
              unfold executeReject
              simp only [Bool.false_eq_true, if_false]
              generalize substituteWorkflowVariables _ false onReject.prompt = substituted
              cases substituted with
              | error error => rfl
              | ok substituted =>
                  simp only
                  generalize invocation.environment.resolveProvider _ = resolved
                  cases resolved with
                  | error error => rfl
                  | ok provider =>
                      rw [List.map_singleton, List.sum_singleton]
                      simp only
                      rw [← countP_isQuery_executeNodeInternal]
                      split_ifs
                      · rfl
                      · exact gate _

theorem queries_executeNode (node : DagNode) (context : TaskContext) :
    (executeNode invocation.environment node context).uses.countP Use.isQuery =
      ((invocation.attempts node context).map Attempt.queries).sum := by
  have ai : ∀ node, (invocation.environment.executeAiNode node context).uses.countP Use.isQuery =
      ((invocation.aiAttempts node context).map Attempt.queries).sum := by
    intro node
    rcases @aiAttempts_cases invocation node context with
      ⟨error, failed, nothing⟩ | ⟨provider, session, executed, made⟩
    · rw [failed, nothing]
      rfl
    · rw [executed, made, countP_isQuery_retryLoop, List.map_map]
      simp only [countP_isQuery_executeNodeInternal]
      rfl
  cases node with
  | command node => exact ai _
  | prompt node => exact ai _
  | bash node => exact countP_isQuery_executeBashNode invocation.environment node _
  | script node => exact countP_isQuery_executeScriptNode invocation.environment node _
  | loop node =>
      have run := (executeLoopNode_run invocation.environment node context.allOutputs).1
      rw [executeNode, run.queries]
      simp [attempts]
  | approval node => exact countP_isQuery_executeApprovalNode node context.allOutputs
  | cancel node => rfl

theorem queries_internalAttempt_le (node : DagNode) (provider : String)
    (nodeOutputs : NodeOutputs) (session : Option String) (attempt : Nat) :
    (invocation.internalAttempt node provider nodeOutputs session attempt).queries ≤
      1 + maxReasks (invocation.settings attempt node) := by
  unfold internalAttempt attemptExchanges
  dsimp only
  split
  · exact Nat.zero_le _
  · exact length_exchanges_reaskLoop _ _ _ _

theorem queries_aiAttempts_le (node : DagNode) (context : TaskContext) :
    ((invocation.aiAttempts node context).map Attempt.queries).sum ≤
      ((List.range ((getEffectiveNodeRetryConfig node).maxRetries + 1)).map fun attempt =>
        1 + maxReasks (invocation.settings attempt node)).sum := by
  rcases @aiAttempts_cases invocation node context with
    ⟨error, -, nothing⟩ | ⟨provider, session, -, made⟩
  · rw [nothing]
    exact Nat.zero_le _
  · rw [made, List.map_map, List.range_eq_range']
    refine le_trans (List.sum_le_sum fun attempt _ =>
      queries_internalAttempt_le node provider context.allOutputs session attempt) ?_
    have numbers := (retryAttempts_isPrefix (getEffectiveNodeRetryConfig node)
      (invocation.environment.executeNodeInternal node provider context.allOutputs session) 0
      (getEffectiveNodeRetryConfig node).maxRetries).sublist
    exact (numbers.map _).sum_le_sum fun _ _ => Nat.zero_le _

theorem maxReasks_le (settings : AiSettings) : maxReasks settings ≤ structuredOutputMaxReasks := by
  unfold maxReasks
  split
  · exact le_refl _
  · exact Nat.zero_le _

theorem queries_rejectAttempts_le (node : ApprovalNode) (nodeOutputs : NodeOutputs) :
    ((invocation.rejectAttempts node nodeOutputs).map Attempt.queries).sum ≤
      1 + structuredOutputMaxReasks := by
  unfold rejectAttempts
  dsimp only
  split
  · split
    · exact Nat.zero_le _
    · split
      · exact Nat.zero_le _
      · split
        · exact Nat.zero_le _
        · rw [List.map_singleton, List.sum_singleton]
          exact (queries_internalAttempt_le _ _ _ _ _).trans
            (Nat.add_le_add_left (maxReasks_le _) 1)
  · exact Nat.zero_le _

variable (invocation) in
def queryLimit (node : DagNode) : Nat :=
  match node with
  | .bash _ => 0
  | .script _ => 0
  | .cancel _ => 0
  | .loop node => node.loopConfig.maxIterations + 1 - invocation.environment.startIteration node
  | .approval _ => 1 + structuredOutputMaxReasks
  | node =>
      ((List.range ((getEffectiveNodeRetryConfig node).maxRetries + 1)).map fun attempt =>
        1 + maxReasks (invocation.settings attempt node)).sum

/-- A node queries a provider no more often than its retries, and what it is asked again, or
its iterations allow. -/
theorem countP_isQuery_executeNode (node : DagNode) (context : TaskContext) :
    (executeNode invocation.environment node context).uses.countP Use.isQuery =
        ((invocation.attempts node context).map Attempt.queries).sum ∧
      (executeNode invocation.environment node context).uses.countP Use.isQuery ≤
        invocation.queryLimit node := by
  refine ⟨queries_executeNode node context, ?_⟩
  rw [queries_executeNode]
  cases node with
  | command node => exact queries_aiAttempts_le _ context
  | prompt node => exact queries_aiAttempts_le _ context
  | bash node => exact le_refl _
  | script node => exact le_refl _
  | loop node =>
      rw [attempts, List.map_singleton, List.sum_singleton]
      exact (executeLoopNode_run invocation.environment node context.allOutputs).2
  | approval node => exact queries_rejectAttempts_le node context.allOutputs
  | cancel node => exact le_refl _

theorem executeAiNode_cost
    (kept : ∀ attempt ∈ invocation.aiAttempts node context, attempt.failed = true →
      ∀ cost ∈ attempt.costs, cost = none) :
    (invocation.environment.executeAiNode node context).result.cost =
      totalCost ((invocation.aiAttempts node context).flatMap Attempt.costs) := by
  rcases @aiAttempts_cases invocation node context with
    ⟨error, failed, nothing⟩ | ⟨provider, session, executed, made⟩
  · rw [failed, nothing]
    rfl
  · rw [made] at kept ⊢
    rw [executed]
    rcases retryLoop_last (getEffectiveNodeRetryConfig node)
      (invocation.environment.executeNodeInternal node provider context.allOutputs session)
      0 (getEffectiveNodeRetryConfig node).maxRetries with ⟨earlier, last, numbers, before, result⟩
    rw [numbers] at kept ⊢
    have unreported : ∀ cost ∈ (earlier.map (invocation.internalAttempt node provider
        context.allOutputs session)).flatMap Attempt.costs, cost = none := by
      intro cost member
      rcases List.mem_flatMap.mp member with ⟨made, among, reported⟩
      rcases List.mem_map.mp among with ⟨number, inside, rfl⟩
      apply kept _ _ _ cost reported
      · exact List.mem_map_of_mem (List.mem_append_left _ inside)
      · exact decide_eq_true (before number inside)
    have charges := invocation.internalAttempt_charges node provider context.allOutputs session last
    rw [result, List.map_append, List.flatMap_append, totalCost_append_of_unreported unreported,
      List.map_singleton, List.flatMap_singleton]
    apply charges.cost_eq
    intro failed
    apply kept
    · exact List.mem_map_of_mem (List.mem_append_right _ (List.mem_singleton_self last))
    · exact decide_eq_true failed

theorem executeNode_cost (notGate : node.isApproval = false)
    (kept : ∀ attempt ∈ invocation.attempts node context, attempt.failed = true →
      ∀ cost ∈ attempt.costs, cost = none) :
    (executeNode invocation.environment node context).result.cost =
      totalCost (invocation.consumed node context) := by
  unfold consumed
  cases node with
  | command node => exact executeAiNode_cost kept
  | prompt node => exact executeAiNode_cost kept
  | bash node =>
      rw [executeNode, executeBashNode]
      split
      · rfl
      · rfl
  | script node =>
      rw [executeNode, executeScriptNode]
      split
      · rfl
      · simp only
        split
        · rfl
        · rfl
  | loop node =>
      have charges := executeLoopNode_charges invocation.environment node context.allOutputs
      rw [executeNode, attempts, List.flatMap_singleton]
      apply charges.cost_eq
      intro failed
      exact kept _ (List.mem_singleton_self _) (decide_eq_true failed)
  | approval node => cases notGate
  | cancel node => rfl

theorem executeApprovalNode_cost (node : ApprovalNode) (nodeOutputs : NodeOutputs) :
    (invocation.environment.executeApprovalNode node nodeOutputs).result.cost = none := by
  have gate : ∀ uses, (invocation.environment.approvalGate node nodeOutputs uses).result.cost =
      none := by
    intro uses
    unfold approvalGate
    simp only
    split
    · rfl
    · rfl
  unfold executeApprovalNode
  split
  · split
    · rfl
    · unfold executeReject
      simp only
      split
      · rfl
      · split
        · rfl
        · split_ifs
          · rfl
          · exact gate _
  · exact gate []

end ProvidedInvocation

/-! ## Tasks -/

namespace DagWorkflow

instance decidableDispatched (environment : Environment) (prior : PriorNodes)
    (snapshot : NodeOutputs) (node : DagNode) :
    Decidable (Dispatched environment prior snapshot node) :=
  decidable_of_iff
    (¬(node.alwaysRuns = false ∧ node.id ∈ prior) ∧
      checkTriggerRule node (visibleOutputs prior snapshot node) = .run ∧
      ∀ expr ∈ node.base.when,
        ConditionEvaluator.evaluateCondition environment.serde
          (visibleOutputs prior snapshot node) expr = .ok ConditionEvaluator.parsedTrue)
    ⟨fun parts => ⟨parts.1, parts.2.1, parts.2.2⟩,
      fun dispatched => ⟨dispatched.notCarried, dispatched.triggered, dispatched.condition⟩⟩

structure Task where
  node : DagNode
  context : TaskContext

section Tasks

variable (environment : Environment) (prior : PriorNodes)

def layerContext (progress : Progress) (layer : List DagNode) (node : DagNode) : TaskContext where
  allOutputs := visibleOutputs prior progress.nodeOutputs node
  resumeSession := if 1 < layer.length then none else progress.lastSequentialSessionId
  isParallel := 1 < layer.length

def layerTasks (progress : Progress) (layer : List DagNode) : List Task :=
  (layer.filter fun node => Dispatched environment prior progress.nodeOutputs node).map
    fun node => { node, context := layerContext prior progress layer node }

def startedTasks : Nat → List (List DagNode) → Progress → List Task
  | _, [], _ => []
  | index, layer :: rest, progress =>
      layerTasks environment prior progress layer ++
        if stops (environment.statusAfterLayer index) then []
        else startedTasks (index + 1) rest (runLayer environment prior progress layer)

def collectedCost (task : Task) : Option F64 :=
  if environment.lost task.node then none else (environment.dispatch task.node task.context).cost

variable {environment prior}

theorem totalCostUsd_collect (isParallel : Bool) (progress : Progress) (id : String)
    (result : NodeResult) :
    (collect isParallel progress id result).totalCostUsd =
      addCost progress.totalCostUsd result.cost := by
  unfold collect addCost
  cases result.cost with
  | none => rfl
  | some cost => rfl

theorem runTask_unspent (session : Option String) (isParallel : Bool)
    (kept : ¬Dispatched environment prior snapshot node) :
    (runTask environment prior snapshot session isParallel node).cost = none := by
  rcases runTask_cases environment prior snapshot session isParallel node with
    dispatched | skipped | ⟨text, carried⟩
  · exact absurd dispatched kept
  · rw [skipped]
    rfl
  · rw [carried]

theorem totalCostUsd_collectTask (progress : Progress) (layer : List DagNode) (node : DagNode)
    (collected : Progress) :
    (if environment.lost node then collected
      else collect (1 < layer.length) collected node.id
        (layerTask environment prior progress layer node)).totalCostUsd =
      if Dispatched environment prior progress.nodeOutputs node then
        addCost collected.totalCostUsd
          (collectedCost environment { node, context := layerContext prior progress layer node })
      else collected.totalCostUsd := by
  unfold collectedCost
  by_cases dispatched : Dispatched environment prior progress.nodeOutputs node
  · rw [if_pos dispatched, layerTask, runTask_of_dispatched dispatched]
    cases environment.lost node with
    | true => rfl
    | false => exact totalCostUsd_collect _ _ _ _
  · rw [if_neg dispatched]
    cases environment.lost node with
    | true => rfl
    | false =>
        rw [if_neg Bool.false_ne_true, totalCostUsd_collect, layerTask, runTask_unspent _ _ dispatched]
        rfl

theorem totalCostUsd_runLayer (progress : Progress) (layer : List DagNode) :
    (runLayer environment prior progress layer).totalCostUsd =
      ((layerTasks environment prior progress layer).map (collectedCost environment)).foldl addCost
        progress.totalCostUsd := by
  have general : ∀ (nodes : List DagNode) (start : Progress),
      (nodes.foldl
        (fun collected node =>
          if environment.lost node then collected
          else collect (1 < layer.length) collected node.id
            (layerTask environment prior progress layer node))
        start).totalCostUsd =
      (((nodes.filter fun node => Dispatched environment prior progress.nodeOutputs node).map
        fun node => { node, context := layerContext prior progress layer node }).map
          (collectedCost environment)).foldl addCost start.totalCostUsd := by
    intro nodes
    induction nodes with
    | nil =>
        intro start
        rfl
    | cons node rest induction =>
        intro start
        rw [List.foldl_cons, induction, totalCostUsd_collectTask, List.filter_cons]
        by_cases dispatched : Dispatched environment prior progress.nodeOutputs node
        · rw [if_pos dispatched, decide_eq_true dispatched]
          rfl
        · rw [if_neg dispatched, decide_eq_false dispatched]
          rfl
  unfold runLayer layerTasks
  simp only [decide_eq_true_eq]
  exact general layer _

theorem totalCostUsd_layerLoop (index : Nat) (layers : List (List DagNode)) (progress : Progress) :
    (layerLoop environment prior index layers progress).1.totalCostUsd =
      ((startedTasks environment prior index layers progress).map
        (collectedCost environment)).foldl addCost progress.totalCostUsd := by
  induction layers generalizing index progress with
  | nil => rfl
  | cons layer rest induction =>
      have first := @totalCostUsd_runLayer environment prior progress layer
      rw [layerLoop, startedTasks, List.map_append, List.foldl_append, ← first]
      split_ifs
      · rfl
      · exact induction _ _

end Tasks

end DagWorkflow

/-! ## Runs -/

/-- What a completed run stores about its cost; nothing if it is not positive. -/
def StoresCost (metadata : Members) (total : F64) : Prop :=
  Members.get metadata "total_cost_usd" =
    if total.isPositive then some (Value.ofF64 total) else none

theorem storesCost_completionMetadata (nodes : List DagNode) (progress : Progress) :
    StoresCost (completionMetadata nodes progress) progress.totalCostUsd := by
  unfold StoresCost completionMetadata
  simp only
  split_ifs
  · rfl
  · rfl

namespace ProvidedInvocation

variable (invocation : ProvidedInvocation) (nodes : List DagNode)

/-- The nodes that get to their executors, in the order in which their results are
collected. -/
def tasks : List Task :=
  match buildTopologicalLayers nodes with
  | .error _ => []
  | .ok layers =>
      startedTasks invocation.toEnvironment invocation.prior 0 layers
        { nodeOutputs := prepopulate nodes invocation.prior }

def taskCost (task : Task) : Option F64 :=
  totalCost (invocation.consumed task.node task.context)

def nodesCost : F64 :=
  (totalCost (((invocation.tasks nodes).filter fun task => !task.node.isApproval).map
    invocation.taskCost)).getD F64.zero

/-- What all the answers cost that were consumed each time a run was started. -/
def consumedCost (parts : List ProvidedInvocation) (nodes : List DagNode) : F64 :=
  (totalCost (parts.flatMap fun part => (part.tasks nodes).map part.taskCost)).getD F64.zero

def FailuresReportNothing : Prop :=
  ∀ task ∈ invocation.tasks nodes, task.node.isApproval = false →
    ∀ attempt ∈ invocation.attempts task.node task.context,
      attempt.failed = true ∨ invocation.lost task.node = true → ∀ cost ∈ attempt.costs, cost = none

variable {invocation nodes}

theorem collectedCost_of_gate (gate : task.node.isApproval = true) :
    collectedCost invocation.toEnvironment task = none := by
  rcases task with ⟨node, context⟩
  cases node with
  | approval node =>
      unfold collectedCost
      split_ifs
      · rfl
      · exact executeApprovalNode_cost node context.allOutputs
  | command node => cases gate
  | prompt node => cases gate
  | bash node => cases gate
  | script node => cases gate
  | loop node => cases gate
  | cancel node => cases gate

theorem collectedCost_of_kept (kept : invocation.FailuresReportNothing nodes)
    (member : task ∈ invocation.tasks nodes) (notGate : task.node.isApproval = false) :
    collectedCost invocation.toEnvironment task = invocation.taskCost task := by
  unfold collectedCost
  split_ifs with lost
  · symm
    apply totalCost_eq_none.mpr
    intro cost reported
    rcases List.mem_flatMap.mp reported with ⟨attempt, made, among⟩
    exact kept task member notGate attempt made (.inr lost) cost among
  · apply executeNode_cost notGate
    intro attempt made failed
    exact kept task member notGate attempt made (.inl failed)

end ProvidedInvocation

open ProvidedInvocation

/-- A completed run stores what its nodes other than gates have cost since it was last
started, if no attempt that failed was reported a cost. -/
theorem completedRun_cost (invocation : ProvidedInvocation) (workflowName : String)
    (nodes : List DagNode) {result : WorkflowResult} {metadata : Members}
    (executed : executeDagWorkflow invocation.toEnvironment workflowName nodes invocation.prior =
      .ok result)
    (completed : result.ending = .completed metadata)
    (kept : invocation.FailuresReportNothing nodes) :
    StoresCost metadata (invocation.nodesCost nodes) := by
  rcases executeDagWorkflow_eq_ok executed with ⟨layers, built, rfl⟩
  rcases concludeWorkflow_metadata completed with ⟨rfl, _⟩
  have started : invocation.tasks nodes =
      startedTasks invocation.toEnvironment invocation.prior 0 layers
        { nodeOutputs := prepopulate nodes invocation.prior } := by
    rw [tasks, built]
  have collected : ((invocation.tasks nodes).filter fun task => !task.node.isApproval).map
        (collectedCost invocation.toEnvironment) =
      ((invocation.tasks nodes).filter fun task => !task.node.isApproval).map
        invocation.taskCost := by
    apply List.map_congr_left
    intro task member
    rcases List.mem_filter.mp member with ⟨inside, notGate⟩
    exact collectedCost_of_kept kept inside (by simpa using notGate)
  have total : (layerLoop invocation.toEnvironment invocation.prior 0 layers
      { nodeOutputs := prepopulate nodes invocation.prior }).1.totalCostUsd =
      invocation.nodesCost nodes := by
    rw [totalCostUsd_layerLoop, foldl_addCost_zero, nodesCost, ← collected, totalCost_filter,
      started]
    intro task _ dropped
    exact collectedCost_of_gate (by simpa using dropped)
  rw [← total]
  exact storesCost_completionMetadata nodes _

def AiExecution.answer (execution : AiExecution) : AiAnswer where
  result := execution.result.getD { output := .failure "" }
  reasks := (execution.exchanges.map fun made => made.query.prompt).tail

def Invocation.provided (invocation : Invocation) (settings : Nat → DagNode → AiSettings) :
    ProvidedInvocation where
  toInvocation :=
    { invocation with
      environment :=
        { invocation.environment with
          stream := fun attempt node session prompt =>
            (asking (settings attempt node) invocation.environment node session prompt).answer } }
  settings := settings
  results := by
    intro attempt node session prompt
    rcases @reaskLoop_endsAfter (settings attempt node) node.id session
      (maxReasks (settings attempt node)) 0 prompt
      (resolvedPass invocation.environment node) [] rfl rfl rfl with ⟨earlier, last, ends⟩
    rcases finishPass_cost (settings attempt node) node.id last with ⟨result, found, _⟩
    change (asking (settings attempt node) invocation.environment node session prompt).result =
      some (asking (settings attempt node) invocation.environment node session
        prompt).answer.result
    rw [AiExecution.answer, asking, ends.result, found]
    rfl
  prompts := by
    intro attempt node session prompt
    rcases @prompts_reaskLoop (settings attempt node) node.id session
      (maxReasks (settings attempt node)) 0 prompt (resolvedPass invocation.environment node) with
      ⟨later, prompts, _⟩
    change ((asking (settings attempt node) invocation.environment node session
        prompt).exchanges.map fun made => made.query.prompt) =
      prompt :: (asking (settings attempt node) invocation.environment node session
        prompt).answer.reasks
    rw [AiExecution.answer, asking, prompts]
    rfl

namespace RunCost

def answers (cost : F64) : AiSettings where
  tables := CompletionTags.asciiTables
  structuredOutput := .none
  outputFormat := none
  maxBudgetUsd := none
  idleTimeoutMinutes := "30"
  sendQuery := fun _ _ _ =>
    { arrivals := [{ chunk := .assistant "Done." }, { chunk := .result { cost := some cost } }] }
  validateStructuredOutput := fun _ _ => .valid
  serialize := fun _ => .ok ""

def overloaded : AiSettings :=
  { answers F64.zero with
    sendQuery := fun _ _ _ =>
      { arrivals :=
          [{ chunk := .result { isError := some true, errorSubtype := some "overloaded" } }] } }

def rejectedPart : ProvidedInvocation :=
  (ApprovalGate.invocation ApprovalGate.rejectedOnce (.ok (some .paused))).provided
    fun _ _ => answers oneDollar

def events : List RunEvent :=
  [{ workflowRunId := "run"
     event := .nodeCompleted (rejectNode ApprovalGate.gate "Fix it.").id
       { durationMs := 5, nodeOutput := "Done." } },
    { workflowRunId := "run"
      event := .nodeCompleted ApprovalGate.gate.base.id { durationMs := 0, nodeOutput := "" } }]

/-- The run goes on after the gate. The first answer fails, and the second one costs two
dollars. -/
def approvedPart : ProvidedInvocation :=
  Invocation.provided
    { ApprovalGate.invocation [] (.ok (some .running)) with
      prior := ((∅ : PriorNodes).insert "gate:on_reject" "Done.").insert "gate" "" }
    fun attempt _ => if attempt = 0 then overloaded else answers twoDollars

def threeDollars : F64 := ⟨0x4008000000000000⟩

theorem approved_completes :
    ∃ result metadata,
      executeDagWorkflow approvedPart.toEnvironment "w" ApprovalGate.nodes approvedPart.prior =
        .ok result ∧
      result.ending = .completed metadata ∧
      Members.get metadata "total_cost_usd" = some (Value.ofF64 twoDollars) :=
  ⟨_, _, rfl, rfl, by decide +kernel⟩

end RunCost

open RunCost

theorem completedRun_cost_approved :
    ∃ result metadata,
      executeDagWorkflow approvedPart.toEnvironment "w" ApprovalGate.nodes approvedPart.prior =
        .ok result ∧
      result.ending = .completed metadata ∧
      approvedPart.nodesCost ApprovalGate.nodes = twoDollars ∧
      StoresCost metadata (approvedPart.nodesCost ApprovalGate.nodes) := by
  rcases approved_completes with ⟨result, metadata, executed, completed, _⟩
  have kept : approvedPart.FailuresReportNothing ApprovalGate.nodes := by
    unfold FailuresReportNothing
    decide +kernel
  have total : approvedPart.nodesCost ApprovalGate.nodes = twoDollars := by decide +kernel
  exact ⟨result, metadata, executed, completed, total,
    completedRun_cost approvedPart "w" ApprovalGate.nodes executed completed kept⟩

/-- The run is paused again after the prompt of a rejection, which has cost one dollar, and
is then completed. What is stored is only what was consumed after the approval. -/
theorem completedRun_cost_rejected :
    (∃ result,
      executeDagWorkflow rejectedPart.toEnvironment "w" ApprovalGate.nodes rejectedPart.prior =
        .ok result ∧
      result.ending = .stopped none) ∧
    NodeCounts.priorOf events = .ok approvedPart.prior ∧
    ∃ result metadata,
      executeDagWorkflow approvedPart.toEnvironment "w" ApprovalGate.nodes approvedPart.prior =
        .ok result ∧
      result.ending = .completed metadata ∧
      Members.get metadata "total_cost_usd" = some (Value.ofF64 twoDollars) ∧
      consumedCost [rejectedPart, approvedPart] ApprovalGate.nodes = threeDollars ∧
      ¬StoresCost metadata (consumedCost [rejectedPart, approvedPart] ApprovalGate.nodes) := by
  rcases approved_completes with ⟨result, metadata, executed, completed, stored⟩
  have consumed : consumedCost [rejectedPart, approvedPart] ApprovalGate.nodes = threeDollars := by
    decide +kernel
  refine ⟨⟨_, rfl, rfl⟩, rfl, result, metadata, executed, completed, stored, consumed, ?_⟩
  rw [consumed, StoresCost, stored]
  decide +kernel

end HarnessAgent
