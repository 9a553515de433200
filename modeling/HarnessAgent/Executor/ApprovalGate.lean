import HarnessAgent.Executor.ReferenceFailure
import HarnessAgent.Executor.RepeatedIds
import HarnessAgent.Foundation.Float64Order
import HarnessAgent.Store.ApprovalPause
import HarnessAgent.Store.RunStatus

/-! # Approval gates

A gate reports itself as completed. What holds its dependents back is the status of the
run, which the gate has changed in the store and which is read before the next layer
starts. After a rejection the gate runs a prompt first, until the rejections are counted
up to a limit.
-/

namespace HarnessAgent

open DagWorkflow TopologicalLayers

namespace DagWorkflow

theorem Reaches.continues {environment : Environment} {prior : PriorNodes}
    (reaches : Reaches environment prior index layers progress target remaining reached)
    (after : index ≤ passed) (before : passed < target) :
    stops (environment.statusAfterLayer passed) = false := by
  induction reaches with
  | here => omega
  | @next index target layer rest remaining progress reached continues later induction =>
      rcases Nat.eq_or_lt_of_le after with rfl | further
      · exact continues
      · exact induction further before

theorem Reaches.drop {environment : Environment} {prior : PriorNodes}
    (reaches : Reaches environment prior index layers progress target remaining reached) :
    index ≤ target ∧ layers.drop (target - index) = remaining := by
  induction reaches with
  | here => simp
  | @next index target layer rest remaining progress reached continues later induction =>
      have step : target - index = target - (index + 1) + 1 := by omega
      refine ⟨by omega, ?_⟩
      rw [step, List.drop_succ_cons]
      exact induction.2

theorem Reaches.getElem? {environment : Environment} {prior : PriorNodes}
    (reaches : Reaches environment prior 0 layers progress target (layer :: later) reached) :
    layers[target]? = some layer := by
  have remaining := reaches.drop.2
  rw [Nat.sub_zero] at remaining
  rw [← List.head?_drop, remaining]
  rfl

end DagWorkflow

/-! ## Runs of the executor -/

structure Invocation where
  environment : NodeEnvironment
  lost : DagNode → Bool := fun _ => false
  statusAfterLayer : Nat → Except StoreError (Option WorkflowRunStatus)
  statusAtEnd : Except StoreError (Option WorkflowRunStatus)
  prior : PriorNodes := ∅

namespace Invocation

variable (invocation : Invocation) (nodes : List DagNode)

def toEnvironment : Environment :=
  invocation.environment.toEnvironment invocation.lost invocation.statusAfterLayer
    invocation.statusAtEnd

/-- A node gets to its executor after the layers before an index, with the outputs it
sees. -/
def DispatchesAt (node : DagNode) (index : Nat) (outputs : NodeOutputs) : Prop :=
  ∃ layers layer later progress, buildTopologicalLayers nodes = .ok layers ∧
    Reaches invocation.toEnvironment invocation.prior 0 layers
      { nodeOutputs := prepopulate nodes invocation.prior } index (layer :: later) progress ∧
    node ∈ layer ∧ Dispatched invocation.toEnvironment invocation.prior progress.nodeOutputs node ∧
    outputs = visibleOutputs invocation.prior progress.nodeOutputs node

def Executes (node : DagNode) : Prop :=
  ∃ index outputs, invocation.DispatchesAt nodes node index outputs

def GateUses (gate : ApprovalNode) (index : Nat) (use : Use) : Prop :=
  ∃ outputs, invocation.DispatchesAt nodes (.approval gate) index outputs ∧
    use ∈ (invocation.environment.executeApprovalNode gate outputs).uses

def RunsRejection (gate : ApprovalNode) : Prop :=
  ∃ index prompt, invocation.GateUses nodes gate index (.query prompt)

end Invocation

/-! ## The store -/

/-- The gate has stopped its run in the store: it is paused for an approval, or cancelled
because the attempts are used up. -/
inductive Halts (dialect : Dialect) (id : String) : Use → RunTable → Prop
  | paused {context : ApprovalContext} {call : DbCall} {table : RunTable}
      (succeeded : (SqlWorkflowStore.pauseWorkflowRun dialect call table id context).2 = .ok ()) :
      Halts dialect id (.pauseRun context)
        (SqlWorkflowStore.pauseWorkflowRun dialect call table id context).1
  | cancelled {reason : String} {call : DbCall} {table : RunTable}
      (succeeded : (SqlWorkflowStore.cancelWorkflowRun dialect call table id).2 = .ok true) :
      Halts dialect id (.cancelRun reason)
        (SqlWorkflowStore.cancelWorkflowRun dialect call table id).1

theorem Halts.not_running {id : String} (halts : Halts dialect id use table) :
    storedStatus table id ≠ some .running := by
  cases halts with
  | @paused context call before succeeded =>
      rw [storedStatus]
      cases stored : before.find id with
      | none =>
          have absent := RunHistory.find_step dialect before
            { client := (), operation := .pause id context, call } id
          rw [stored] at absent
          change (SqlWorkflowStore.pauseWorkflowRun dialect call before id context).1.find id = none
            at absent
          simp [absent]
      | some row =>
          rw [(SqlWorkflowStore.find_pauseWorkflowRun stored succeeded).2]
          simp [SqlWorkflowStore.pauseUpdate]
  | @cancelled reason call before succeeded =>
      have found := RunHistory.find_step dialect before
        { client := (), operation := .cancel id, call } id
      change (SqlWorkflowStore.cancelWorkflowRun dialect call before id).1.find id = _ at found
      rw [storedStatus, found]
      cases stored : before.find id with
      | none => simp
      | some row =>
          have answered : call.failure = none := by
            cases failure : call.failure with
            | none => rfl
            | some error =>
                rw [SqlWorkflowStore.cancelWorkflowRun, SqlWorkflowStore.query, failure] at succeeded
                cases succeeded
          have same : row.id = id := (Table.find_eq_some.mp stored).2
          simp only [Option.map_some, RunHistory.effect, answered, RunOperation.update,
            RowUpdate.apply, SqlWorkflowStore.cancelUpdate, same, true_and]
          by_cases finished : row.status ≠ .completed ∧ row.status ≠ .cancelled
          · simp [finished]
          · rw [if_neg (by simpa using finished)]
            intro running
            rw [Option.some.inj running] at finished
            simp at finished

/-! ## Dependents of a gate -/

/-- After the layer of a gate that has stopped its run, the status is read, and nobody has
resumed the run in the meantime. -/
def ReadsHalted (dialect : Dialect) (invocation : Invocation) (index : Nat) (use : Use) : Prop :=
  ∃ (table : RunTable) (requests : List (RunRequest Unit)),
    Halts dialect invocation.environment.run.id use table ∧
    (∀ request ∈ requests, request.operation ≠ .resume invocation.environment.run.id) ∧
    invocation.statusAfterLayer index =
      .ok (storedStatus (RunHistory.run dialect table requests) invocation.environment.run.id)

theorem stops_of_readsHalted {invocation : Invocation}
    (reads : ReadsHalted dialect invocation index use) :
    stops (invocation.statusAfterLayer index) = true := by
  rcases reads with ⟨table, requests, halts, others, answer⟩
  have stopped : storedStatus (RunHistory.run dialect table requests)
      invocation.environment.run.id ≠ some .running := storedStatus_run others halts.not_running
  rw [answer]
  cases status : storedStatus (RunHistory.run dialect table requests)
      invocation.environment.run.id with
  | none => rfl
  | some status' =>
      rw [status] at stopped
      simpa [stops] using stopped

theorem not_executes_of_stopped {invocation : Invocation} {nodes : List DagNode} {gate : DagNode}
    (reached : invocation.DispatchesAt nodes gate index outputs)
    (stopped : stops (invocation.statusAfterLayer index) = true)
    (chain : Relation.TransGen (Names nodes) gate dependent) :
    ¬invocation.Executes nodes dependent := by
  intro executes
  rcases reached with ⟨layers, layer, later, progress, built, reaches, member, -, -⟩
  rcases executes with
    ⟨otherIndex, -, otherLayers, otherLayer, otherLater, otherProgress, otherBuilt, otherReaches,
      otherMember, -, -⟩
  rw [built] at otherBuilt
  cases otherBuilt
  have order := transitive_order_of_build built reaches.getElem? member otherReaches.getElem?
    otherMember chain
  have continues := otherReaches.continues (Nat.zero_le index) order
  rw [show invocation.toEnvironment.statusAfterLayer = invocation.statusAfterLayer from rfl,
    stopped] at continues
  cases continues

/-! ## Prompts of rejections -/

namespace NodeEnvironment

variable {environment : NodeEnvironment} {gate : ApprovalNode} {nodeOutputs : NodeOutputs}

theorem not_exhausted_of_query (configured : gate.approval.onReject = some onReject)
    (queries : Use.query prompt ∈ (environment.executeApprovalNode gate nodeOutputs).uses) :
    environment.attemptsExhausted onReject = false := by
  rw [executeApprovalNode, configured] at queries
  split at queries
  next reason other rejected same =>
    cases same
    split at queries
    · cases List.mem_singleton.mp queries
    next isOpen => exact Bool.not_eq_true _ ▸ isOpen
  next =>
    have impossible := query_of_approvalGate queries
    cases impossible

def CountsRejections (environment : NodeEnvironment) (rejections : Nat) : Prop :=
  environment.rejectionCount = F64.ofRat rejections

theorem lt_maxAttempts_of_query (configured : gate.approval.onReject = some onReject)
    (counts : environment.CountsRejections rejections)
    (queries : Use.query prompt ∈ (environment.executeApprovalNode gate nodeOutputs).uses) :
    rejections < maxAttempts onReject := by
  have isOpen := not_exhausted_of_query configured queries
  by_contra reached
  have order : ((maxAttempts onReject : Nat) : Rat) ≤ rejections := by
    exact_mod_cast not_lt.mp reached
  rw [attemptsExhausted, counts, F64.lessEqual_ofRat (Nat.cast_nonneg _) order] at isOpen
  cases isOpen

end NodeEnvironment

theorem length_le_of_increasing {α : Type} {bound : Nat} {number : α → Nat} {values : List α}
    (below : ∀ value ∈ values, number value < bound)
    (increasing : values.Pairwise fun earlier later => number earlier < number later) :
    values.length ≤ bound := by
  have nodup : (values.map number).Nodup :=
    List.pairwise_map.mpr (increasing.imp fun less => Nat.ne_of_lt less)
  have inside : values.map number ⊆ List.range bound := by
    intro value member
    rcases List.mem_map.mp member with ⟨source, inside, rfl⟩
    exact List.mem_range.mpr (below source inside)
  have length := (nodup.subperm inside).length_le
  rwa [List.length_map, List.length_range] at length

/-- A gate that has stopped its run holds its dependents back, as long as the status that
is read afterwards is the stored one and nobody has resumed the run. The prompts of its
rejections are run while the rejections are below the limit, so if each run is followed by
a rejection there are at most as many as the limit. -/
theorem approvalGate_holds (nodes : List DagNode) (gate : ApprovalNode) :
    (∀ (dialect : Dialect) (invocation : Invocation) (index : Nat) (use : Use),
      invocation.GateUses nodes gate index use →
      ReadsHalted dialect invocation index use →
      ∀ dependent, Relation.TransGen (Names nodes) (.approval gate) dependent →
        ¬invocation.Executes nodes dependent) ∧
    (∀ (onReject : ApprovalOnReject) (answers : List (Nat × Invocation)),
      gate.approval.onReject = some onReject →
      (∀ answer ∈ answers, answer.2.environment.CountsRejections answer.1 ∧
        answer.2.RunsRejection nodes gate) →
      (∀ answer ∈ answers, answer.1 < NodeEnvironment.maxAttempts onReject) ∧
      (answers.Pairwise (fun earlier later => earlier.1 < later.1) →
        answers.length ≤ NodeEnvironment.maxAttempts onReject)) := by
  constructor
  · intro dialect invocation index use uses reads dependent chain
    rcases uses with ⟨outputs, reached, -⟩
    exact not_executes_of_stopped reached (stops_of_readsHalted reads) chain
  · intro onReject answers configured runs
    have below : ∀ answer ∈ answers, answer.1 < NodeEnvironment.maxAttempts onReject := by
      intro answer member
      rcases runs answer member with ⟨counts, index, prompt, outputs, -, queries⟩
      exact NodeEnvironment.lt_maxAttempts_of_query configured counts queries
    exact ⟨below, length_le_of_increasing below⟩

namespace ApprovalGate

def gate : ApprovalNode where
  base := { id := "gate" }
  approval :=
    { message := "Ship it?", onReject := some { prompt := "Fix it.", maxAttempts := some 2 } }

def ship : DagNode :=
  .prompt { base := { id := "ship", dependsOn := ["gate"] }, prompt := "Ship it." }

def nodes : List DagNode := [.approval gate, ship]

theorem built : buildTopologicalLayers nodes = .ok [[.approval gate], [ship]] := by decide

theorem ship_depends : Relation.TransGen (Names nodes) (.approval gate) ship :=
  .single ⟨by decide, by decide, by decide⟩

def environment (metadata : Members) : NodeEnvironment :=
  { NodeEnvironment.quietEnvironment with
    run := { NodeEnvironment.quietEnvironment.run with metadata }
    resolveProvider := fun _ => .ok "claude"
    isRegistered := fun _ => true
    pauseRun := fun _ => .ok () }

def invocation (metadata : Members) (status : Except StoreError (Option WorkflowRunStatus)) :
    Invocation where
  environment := environment metadata
  statusAfterLayer := fun _ => status
  statusAtEnd := status

theorem dispatches_gate (metadata : Members)
    (status : Except StoreError (Option WorkflowRunStatus)) :
    (invocation metadata status).DispatchesAt nodes (.approval gate) 0 ∅ := by
  refine ⟨_, _, _, _, built, .here, List.mem_singleton_self _, ⟨?_, rfl, nofun⟩, rfl⟩
  intro carried
  exact absurd carried.2 (AList.notMem_empty _)

def context : ApprovalContext where
  nodeId := "gate"
  message := "Ship it?"
  approvalType := some .approval
  onRejectPrompt := some "Fix it."
  onRejectMaxAttempts := some (F64.ofRat 2)

theorem pauses (status : Except StoreError (Option WorkflowRunStatus)) :
    (invocation [] status).GateUses nodes gate 0 (.pauseRun context) := by
  refine ⟨∅, dispatches_gate [] status, ?_⟩
  change Use.pauseRun context ∈ ((environment []).executeApprovalNode gate ∅).uses
  decide +kernel

def rejectedOnce : Members :=
  [("approval", context.toValue), ("rejection_reason", .string "No."),
    ("rejection_count", .number (.posInt 1))]

theorem runsRejection (status : Except StoreError (Option WorkflowRunStatus)) :
    (invocation rejectedOnce status).RunsRejection nodes gate := by
  refine ⟨0, "Fix it.", ∅, dispatches_gate rejectedOnce status, ?_⟩
  change Use.query "Fix it." ∈ ((environment rejectedOnce).executeApprovalNode gate ∅).uses
  decide +kernel

theorem rejection_fails :
    ((environment rejectedOnce).executeApprovalNode gate ∅).result.output.state = .failed := by
  decide +kernel

def runningTable : RunTable where
  rows := [{ id := "run", status := .running, startedAt := 0 }]
  distinct := by decide

theorem readsHalted :
    ReadsHalted .sqlite (invocation [] (.ok (some .paused))) 0 (.pauseRun context) := by
  have halts := @Halts.paused .sqlite "run" context { clock := 0 } runningTable rfl
  refine ⟨_, [], halts, ?_, by decide +kernel⟩
  intro request member
  cases member

end ApprovalGate

open ApprovalGate

theorem approvalGate_holds_ship :
    ¬(invocation [] (.ok (some .paused))).Executes nodes ship ∧
      [(1, invocation rejectedOnce (.ok (some .paused)))].length ≤ 2 := by
  have holds := approvalGate_holds nodes gate
  refine ⟨holds.1 .sqlite _ 0 _ (pauses _) readsHalted ship ship_depends, ?_⟩
  apply (holds.2 { prompt := "Fix it.", maxAttempts := some 2 } _ rfl ?_).2
  · exact List.pairwise_singleton _ _
  · intro answer member
    rcases List.mem_singleton.mp member with rfl
    exact ⟨rfl, runsRejection _⟩

/-- A status that cannot be read lets the dependents of a paused gate run, and a prompt that
fails is run again whenever the run is resumed without a rejection. -/
theorem approvalGate_open :
    ((invocation [] (.error (.db "timeout"))).GateUses nodes gate 0 (.pauseRun context) ∧
      Relation.TransGen (Names nodes) (.approval gate) ship ∧
      (invocation [] (.error (.db "timeout"))).Executes nodes ship) ∧
    ∃ answers : List (Nat × Invocation),
      (∀ answer ∈ answers, answer.2.environment.CountsRejections answer.1 ∧
        answer.2.RunsRejection nodes gate ∧
        (answer.2.environment.executeApprovalNode gate ∅).result.output.state = .failed) ∧
      NodeEnvironment.maxAttempts { prompt := "Fix it.", maxAttempts := some 2 } <
        answers.length := by
  refine ⟨⟨pauses _, ship_depends, ?_⟩, List.replicate 3
    (1, invocation rejectedOnce (.ok (some .running))), ?_, by decide⟩
  · refine ⟨1, _, _, _, _, _, built, .next rfl .here, List.mem_singleton_self _,
      ⟨?_, by decide +kernel, nofun⟩, rfl⟩
    intro carried
    exact absurd carried.2 (AList.notMem_empty _)
  · intro answer member
    rcases List.eq_of_mem_replicate member with rfl
    exact ⟨rfl, runsRejection _, rejection_fails⟩

end HarnessAgent
