import HarnessAgent.Executor.ReferenceFailure
import HarnessAgent.Executor.RepeatedIds
import HarnessAgent.Store.WorkflowEvents

/-! # Counts of nodes

A completed run stores how many nodes completed, failed and were skipped. The counts are
taken over the collected outputs, which also hold what an earlier part of the run left
behind.
-/

namespace HarnessAgent

open DagWorkflow

def NodeOutput.Settled (output : NodeOutput) : Prop :=
  output.state = .completed ∨ output.state = .failed ∨ output.state = .skipped

structure SettledEnvironment extends Environment where
  settled : ∀ node context, (dispatch node context).output.Settled

/-! ## Executors -/

namespace NodeEnvironment

theorem settled_failure (error : String) : (NodeOutput.failure error).Settled := .inr (.inl rfl)

theorem settled_subprocessOutput (label executable : String) (call : SubprocessCall)
    (outcome : SubprocessOutcome) :
    (subprocessOutput label executable call outcome).Settled := by
  unfold subprocessOutput
  split
  · exact .inl rfl
  all_goals exact settled_failure _

variable (environment : NodeEnvironment)

theorem settled_executeBashNode (node : BashNode) (nodeOutputs : NodeOutputs) :
    (environment.executeBashNode node nodeOutputs).result.output.Settled := by
  unfold executeBashNode
  split
  · exact settled_failure _
  · exact settled_subprocessOutput _ _ _ _

theorem settled_executeScriptNode (node : ScriptNode) (nodeOutputs : NodeOutputs) :
    (environment.executeScriptNode node nodeOutputs).result.output.Settled := by
  unfold executeScriptNode
  split
  · exact settled_failure _
  · simp only
    split
    · exact settled_failure _
    · exact settled_subprocessOutput _ _ _ _

theorem settled_loopGate (node : LoopNode) (message : String) (iteration : Nat)
    (state : LoopState) :
    (environment.loopGate node message iteration state).result.output.Settled := by
  unfold loopGate
  simp only
  split_ifs
  · split
    · exact settled_failure _
    · exact .inl rfl
  · exact .inr (.inl rfl)

theorem settled_finishIteration {pass : LoopPass}
    (ends : environment.finishIteration frame iteration prevOutput pass after = .ends execution) :
    execution.result.output.Settled := by
  unfold finishIteration at ends
  split at ends
  · cases ends
    exact settled_failure _
  · simp only at ends
    split_ifs at ends
    · cases ends
      exact settled_failure _
    · cases ends
      exact .inl rfl
    · split at ends
      · cases ends
        exact settled_loopGate environment _ _ _ _
      · cases ends

theorem settled_loopStep {state : LoopState}
    (ends : environment.loopStep frame iteration state = .ends execution) :
    execution.result.output.Settled := by
  unfold loopStep at ends
  split at ends
  · cases ends
    exact settled_failure _
  · exact settled_finishIteration environment ends

theorem settled_loopIterations (frame : LoopFrame) (remaining iteration : Nat)
    (state : LoopState) :
    (environment.loopIterations frame remaining iteration state).result.output.Settled := by
  induction remaining generalizing iteration state with
  | zero => exact .inr (.inl rfl)
  | succ remaining induction =>
      unfold loopIterations
      split
      · rename_i execution ends
        exact settled_loopStep environment ends
      · exact induction _ _

theorem settled_executeLoopNode (node : LoopNode) (nodeOutputs : NodeOutputs) :
    (environment.executeLoopNode node nodeOutputs).result.output.Settled := by
  unfold executeLoopNode
  split
  · exact settled_failure _
  · split_ifs
    · exact settled_loopIterations environment _ _ _ _
    · exact settled_failure _

theorem settled_approvalGate (node : ApprovalNode) (nodeOutputs : NodeOutputs)
    (uses : List Use) :
    (environment.approvalGate node nodeOutputs uses).result.output.Settled := by
  unfold approvalGate
  simp only
  split
  · exact settled_failure _
  · exact .inl rfl

theorem settled_executeApprovalNode (node : ApprovalNode) (nodeOutputs : NodeOutputs) :
    (environment.executeApprovalNode node nodeOutputs).result.output.Settled := by
  unfold executeApprovalNode
  split
  · split
    · exact .inl rfl
    · unfold executeReject
      simp only
      split
      · exact settled_failure _
      · split
        · exact settled_failure _
        · split_ifs with failed
          · exact .inr (.inl failed)
          · exact settled_approvalGate environment _ _ _
  · exact settled_approvalGate environment _ _ _

section Streams

variable {environment}
  (streams : ∀ attempt node session prompt,
    (environment.stream attempt node session prompt).result.output.Settled)

include streams

theorem settled_executeNodeInternal (node : DagNode) (provider : String)
    (nodeOutputs : NodeOutputs) (session : Option String) (attempt : Nat) :
    (environment.executeNodeInternal node provider nodeOutputs session
      attempt).result.output.Settled := by
  unfold executeNodeInternal
  split
  · exact settled_failure _
  · split
    · exact settled_failure _
    · simp only
      split_ifs
      · exact streams _ _ _ _
      · exact settled_failure _

theorem settled_executeAiNode (node : DagNode) (context : TaskContext) :
    (environment.executeAiNode node context).result.output.Settled := by
  have attempts : ∀ config session attempt remaining provider,
      (retryLoop config
        (environment.executeNodeInternal node provider context.allOutputs session) attempt
        remaining).result.output.Settled := by
    intro config session attempt remaining provider
    refine retryLoop_rule (motive := fun execution => execution.result.output.Settled)
      (fun attempt => ?_) (fun _ _ settled => settled) attempt remaining
    exact settled_executeNodeInternal streams _ _ _ _ _
  rcases environment.executeAiNode_cases node context with
    ⟨error, failed⟩ | ⟨provider, session, _, attempted⟩
  · rw [failed]
    exact settled_failure error
  · rw [attempted]
    exact attempts _ _ _ _ _

theorem settled_executeNode (node : DagNode) (context : TaskContext) :
    (executeNode environment node context).result.output.Settled := by
  cases node with
  | command node => exact settled_executeAiNode streams _ _
  | prompt node => exact settled_executeAiNode streams _ _
  | bash node => exact settled_executeBashNode environment _ _
  | script node => exact settled_executeScriptNode environment _ _
  | loop node => exact settled_executeLoopNode environment _ _
  | approval node => exact settled_executeApprovalNode environment _ _
  | cancel node => exact .inl rfl

end Streams

end NodeEnvironment

/-- A workflow whose nodes are run by these executors; a stream ends with what has become of
its node. -/
def NodeEnvironment.toSettled (environment : NodeEnvironment)
    (streams : ∀ attempt node session prompt,
      (environment.stream attempt node session prompt).result.output.Settled)
    (lost : DagNode → Bool)
    (statusAfterLayer : Nat → Except StoreError (Option WorkflowRunStatus))
    (statusAtEnd : Except StoreError (Option WorkflowRunStatus)) : SettledEnvironment where
  toEnvironment := environment.toEnvironment lost statusAfterLayer statusAtEnd
  settled := fun node context => NodeEnvironment.settled_executeNode streams node context

/-! ## What is counted -/

namespace DagWorkflow

def nodesIn (nodes : List DagNode) (outputs : NodeOutputs) (state : NodeState) : Nat :=
  nodes.countP fun node => (outputs.lookup node.id).any fun output => output.state = state

def StoresCounts (metadata : Members) (completed failed skipped total : Nat) : Prop :=
  Members.get metadata "node_counts" = some (.object
    [("completed", .number (.posInt completed)), ("failed", .number (.posInt failed)),
      ("skipped", .number (.posInt skipped)), ("total", .number (.posInt total))])

/-- The stored counts are those of the nodes of the workflow and add up to their number, and
some node has completed. -/
def CountsNodes (nodes : List DagNode) (outputs : NodeOutputs) (metadata : Members) : Prop :=
  (∃ completed failed skipped total, StoresCounts metadata completed failed skipped total ∧
    completed + failed + skipped = total ∧
    completed = nodesIn nodes outputs .completed ∧ failed = nodesIn nodes outputs .failed ∧
    skipped = nodesIn nodes outputs .skipped ∧ total = nodes.length) ∧
  0 < nodesIn nodes outputs .completed

/-! ## Entries of nodes and other entries -/

section Entries

variable (nodes : List DagNode) (outputs : NodeOutputs) (state : NodeState)

def ownEntries : List (Sigma fun _ : String => NodeOutput) :=
  outputs.entries.filter fun entry => entry.2.state = state ∧ entry.1 ∈ nodes.map DagNode.id

def strayEntries : List (Sigma fun _ : String => NodeOutput) :=
  outputs.entries.filter fun entry => entry.2.state = state ∧ entry.1 ∉ nodes.map DagNode.id

theorem countState_eq :
    countState outputs state =
      (ownEntries nodes outputs state).length + (strayEntries nodes outputs state).length := by
  unfold countState ownEntries strayEntries
  induction outputs.entries with
  | nil => rfl
  | cons entry rest induction =>
      by_cases holds : entry.2.state = state
      · by_cases own : entry.1 ∈ nodes.map DagNode.id
        · simp only [List.filter_cons, holds, own, decide_true, not_true, and_self, and_false,
            decide_false, if_true, Bool.false_eq_true, if_false, List.length_cons]
          omega
        · simp only [List.filter_cons, holds, own, decide_true, not_false_iff, and_self, and_false,
            decide_false, if_true, Bool.false_eq_true, if_false, List.length_cons]
          omega
      · simpa only [List.filter_cons, holds, false_and, decide_false, Bool.false_eq_true, if_false]
          using induction

variable {nodes outputs state}

theorem mem_ownEntries {id : String} :
    id ∈ (ownEntries nodes outputs state).map Sigma.fst ↔
      ∃ output, outputs.lookup id = some output ∧ output.state = state ∧
        id ∈ nodes.map DagNode.id := by
  unfold ownEntries
  constructor
  · intro member
    rcases List.mem_map.mp member with ⟨⟨key, output⟩, inside, rfl⟩
    rw [List.mem_filter, decide_eq_true_eq] at inside
    exact ⟨output, AList.mem_lookup_iff.mpr inside.1, inside.2⟩
  · rintro ⟨output, found, inside⟩
    refine List.mem_map.mpr ⟨⟨id, output⟩, List.mem_filter.mpr ⟨?_, ?_⟩, rfl⟩
    · exact AList.mem_lookup_iff.mp found
    · exact decide_eq_true inside

theorem nodup_ownEntries : ((ownEntries nodes outputs state).map Sigma.fst).Nodup :=
  outputs.nodupKeys.sublist List.filter_sublist

theorem length_ownEntries (unique : (nodes.map DagNode.id).Nodup) :
    (ownEntries nodes outputs state).length = nodesIn nodes outputs state := by
  let ofNode (node : DagNode) : Bool :=
    (outputs.lookup node.id).any fun output => output.state = state
  have keys : ((ownEntries nodes outputs state).map Sigma.fst).Perm
      ((nodes.filter ofNode).map DagNode.id) := by
    rw [List.perm_ext_iff_of_nodup nodup_ownEntries
      (unique.sublist (List.filter_sublist.map DagNode.id))]
    intro id
    rw [mem_ownEntries]
    constructor
    · rintro ⟨output, found, holds, known⟩
      rcases List.mem_map.mp known with ⟨node, member, rfl⟩
      refine List.mem_map_of_mem (List.mem_filter.mpr ⟨member, ?_⟩)
      simp [ofNode, found, holds]
    · intro member
      rcases List.mem_map.mp member with ⟨node, inside, rfl⟩
      rcases List.mem_filter.mp inside with ⟨member, holds⟩
      cases found : outputs.lookup node.id with
      | none => simp [ofNode, found] at holds
      | some output =>
          have inState : output.state = state := by simpa [ofNode, found] using holds
          exact ⟨output, rfl, inState, List.mem_map_of_mem member⟩
  have lengths := keys.length_eq
  rw [List.length_map, List.length_map] at lengths
  rw [lengths, nodesIn, List.countP_eq_length_filter]

theorem length_strayEntries_eq_zero :
    (strayEntries nodes outputs state).length = 0 ↔
      ∀ id output, outputs.lookup id = some output → output.state = state →
        id ∈ nodes.map DagNode.id := by
  rw [List.length_eq_zero_iff, strayEntries, List.filter_eq_nil_iff]
  constructor
  · intro none id output found holds
    by_contra stray
    exact none ⟨id, output⟩ (AList.mem_lookup_iff.mp found) (decide_eq_true ⟨holds, stray⟩)
  · rintro known ⟨id, output⟩ member stray
    have parts := of_decide_eq_true stray
    exact parts.2 (known id output (AList.mem_lookup_iff.mpr member) parts.1)

theorem nodesIn_add (settled : ∀ id output, outputs.lookup id = some output → output.Settled) :
    nodesIn nodes outputs .completed + nodesIn nodes outputs .failed +
      nodesIn nodes outputs .skipped =
        nodes.countP fun node => (outputs.lookup node.id).isSome := by
  unfold nodesIn
  induction nodes with
  | nil => rfl
  | cons node rest induction =>
      simp only [List.countP_cons]
      cases found : outputs.lookup node.id with
      | none =>
          simpa using induction
      | some output =>
          rcases settled node.id output found with state | state | state
          all_goals
            simp only [Option.any_some, Option.isSome_some, state, reduceCtorEq, decide_true,
              decide_false, Bool.false_eq_true, if_true, if_false]
            omega

theorem disjoint_ownEntries (different : state ≠ other) :
    ((ownEntries nodes outputs state).map Sigma.fst).Disjoint
      ((ownEntries nodes outputs other).map Sigma.fst) := by
  intro id left right
  rcases mem_ownEntries.mp left with ⟨output, found, holds, _⟩
  rcases mem_ownEntries.mp right with ⟨otherOutput, otherFound, otherHolds, _⟩
  rw [found] at otherFound
  cases otherFound
  exact different (holds.symm.trans otherHolds)

theorem nodup_of_length_le
    (covers : nodes.length ≤ (ownEntries nodes outputs .completed).length +
      (ownEntries nodes outputs .failed).length + (ownEntries nodes outputs .skipped).length) :
    (nodes.map DagNode.id).Nodup := by
  let keys (state : NodeState) := (ownEntries nodes outputs state).map Sigma.fst
  have distinct : (keys .completed ++ (keys .failed ++ keys .skipped)).Nodup := by
    apply nodup_ownEntries.append
    · apply nodup_ownEntries.append nodup_ownEntries
      exact disjoint_ownEntries (by decide)
    · apply List.disjoint_append_right.mpr
      exact ⟨disjoint_ownEntries (by decide), disjoint_ownEntries (by decide)⟩
  have inside : keys .completed ++ (keys .failed ++ keys .skipped) ⊆
      (nodes.map DagNode.id).dedup := by
    intro id member
    rw [List.mem_dedup]
    rcases List.mem_append.mp member with completed | rest
    · rcases mem_ownEntries.mp completed with ⟨_, _, _, known⟩
      exact known
    · rcases List.mem_append.mp rest with failed | skipped
      · rcases mem_ownEntries.mp failed with ⟨_, _, _, known⟩
        exact known
      · rcases mem_ownEntries.mp skipped with ⟨_, _, _, known⟩
        exact known
  have bound := (distinct.subperm inside).length_le
  simp only [keys, List.length_append, List.length_map] at bound
  have whole : (nodes.map DagNode.id).dedup = nodes.map DagNode.id := by
    apply (List.dedup_sublist _).eq_of_length_le
    rw [List.length_map]
    omega
  rw [← whole]
  exact List.nodup_dedup _

end Entries

/-! ## Entries at the end of a run -/

section Run

variable {environment : Environment} {workflowName : String} {nodes : List DagNode}
  {prior : PriorNodes}

/-- What holds of an entry at the start, and of every result of a task that replaces it, holds
at the end. -/
theorem lookup_layerLoop_rule {holds : Option NodeOutput → Prop} {id : String}
    {layers : List (List DagNode)} (index : Nat) {progress : Progress}
    (initial : holds (progress.nodeOutputs.lookup id))
    (returns : ∀ node snapshot session isParallel,
      holds (some (runTask environment prior snapshot session isParallel node).output)) :
    holds ((layerLoop environment prior index layers progress).1.nodeOutputs.lookup id) := by
  induction layers generalizing index progress with
  | nil => exact initial
  | cons layer rest induction =>
      have after : holds ((runLayer environment prior progress layer).nodeOutputs.lookup id) := by
        apply lookup_runLayer_rule initial
        intro node _ _ _
        exact returns node _ _ _
      rw [layerLoop]
      split
      · exact after
      · exact induction (index + 1) after

theorem runTask_settled (settled : ∀ node context, (environment.dispatch node context).output.Settled)
    (snapshot : NodeOutputs) (session : Option String) (isParallel : Bool) (node : DagNode) :
    (runTask environment prior snapshot session isParallel node).output.Settled := by
  rcases runTask_cases environment prior snapshot session isParallel node with
    dispatched | skipped | ⟨text, carried⟩
  · rw [runTask_of_dispatched dispatched]
    exact settled _ _
  · rw [skipped]
    exact .inr (.inr rfl)
  · rw [carried]
    exact .inl rfl

theorem settled_layerLoop (settled : ∀ node context, (environment.dispatch node context).output.Settled)
    (layers : List (List DagNode)) (id : String) (output : NodeOutput)
    (found : (layerLoop environment prior 0 layers
      { nodeOutputs := prepopulate nodes prior }).1.nodeOutputs.lookup id = some output) :
    output.Settled := by
  revert found
  apply @lookup_layerLoop_rule environment prior
    (fun entry => entry = some output → output.Settled) id layers 0
  · intro found
    rw [lookup_prepopulate] at found
    split at found
    · cases found
    · rcases Option.map_eq_some_iff.mp found with ⟨text, _, same⟩
      rw [← same]
      exact .inl rfl
  · intro node snapshot session isParallel found
    cases found
    exact runTask_settled settled snapshot session isParallel node

theorem lookup_layerLoop_of_stray (built : buildTopologicalLayers nodes = .ok layers) {id : String}
    (stray : id ∉ nodes.map DagNode.id) :
    (layerLoop environment prior 0 layers
      { nodeOutputs := prepopulate nodes prior }).1.nodeOutputs.lookup id =
      (prior.lookup id).map priorOutput := by
  have complete := TopologicalLayers.perm_of_build built
  have absent : ∀ node ∈ layers.flatten, environment.lost node = false → node.id ≠ id := by
    intro node member _ same
    exact stray (List.mem_map.mpr ⟨node, complete.mem_iff.mp member, same⟩)
  have notForced : id ∉ alwaysRunIds nodes := by
    intro forced
    rcases List.mem_map.mp forced with ⟨node, member, same⟩
    exact stray (List.mem_map.mpr ⟨node, (List.mem_filter.mp member).1, same⟩)
  rw [lookup_layerLoop_of_absent absent, lookup_prepopulate, if_neg notForced]

theorem concludeWorkflow_metadata
    (completed : (concludeWorkflow environment workflowName nodes totalLayers loop).ending =
      .completed metadata) :
    metadata = completionMetadata nodes loop.1 ∧
      0 < countState loop.1.nodeOutputs .completed := by
  rcases loop with ⟨progress, stopped⟩
  cases stopped with
  | some index => cases completed
  | none =>
      rw [concludeWorkflow, finishWorkflow] at completed
      split_ifs at completed with stopped noSuccess failures
      cases completed
      exact ⟨rfl, Nat.pos_of_ne_zero noSuccess⟩

theorem storesCounts_completionMetadata (nodes : List DagNode) (progress : Progress)
    {completed failed skipped total : Nat} :
    StoresCounts (completionMetadata nodes progress) completed failed skipped total ↔
      completed = countState progress.nodeOutputs .completed ∧
      failed = countState progress.nodeOutputs .failed ∧
      skipped = countState progress.nodeOutputs .skipped ∧ total = nodes.length := by
  unfold StoresCounts completionMetadata
  simp only [Members.get, List.lookup_cons_self, Option.some.injEq, Value.object.injEq,
    List.cons.injEq, Prod.mk.injEq, Value.number.injEq, Number.posInt.injEq, and_true, true_and]
  constructor
  · rintro ⟨a, b, c, d⟩
    exact ⟨a.symm, b.symm, c.symm, d.symm⟩
  · rintro ⟨a, b, c, d⟩
    exact ⟨a.symm, b.symm, c.symm, d.symm⟩

theorem length_strayEntries_layerLoop {layers : List (List DagNode)}
    (built : buildTopologicalLayers nodes = .ok layers) :
    let outputs := (layerLoop environment prior 0 layers
      { nodeOutputs := prepopulate nodes prior }).1.nodeOutputs
    ((strayEntries nodes outputs .completed).length = 0 ↔
      ∀ id ∈ prior, id ∈ nodes.map DagNode.id) ∧
    (strayEntries nodes outputs .failed).length = 0 ∧
    (strayEntries nodes outputs .skipped).length = 0 := by
  intro outputs
  have entries : ∀ id output, id ∉ nodes.map DagNode.id → outputs.lookup id = some output →
      ∃ text, prior.lookup id = some text ∧ output = priorOutput text := by
    intro id output stray found
    rw [lookup_layerLoop_of_stray built stray] at found
    rcases Option.map_eq_some_iff.mp found with ⟨text, present, same⟩
    exact ⟨text, present, same.symm⟩
  have completedOnly : ∀ state, state ≠ .completed →
      (strayEntries nodes outputs state).length = 0 := by
    intro state different
    rw [length_strayEntries_eq_zero]
    intro id output found holds
    by_contra stray
    rcases entries id output stray found with ⟨text, _, rfl⟩
    exact different holds.symm
  refine ⟨?_, completedOnly _ (by decide), completedOnly _ (by decide)⟩
  rw [length_strayEntries_eq_zero]
  constructor
  · intro known id member
    rcases Option.isSome_iff_exists.mp (AList.lookup_isSome.mpr member) with ⟨text, present⟩
    by_contra stray
    apply stray
    apply known id (priorOutput text)
    · rw [lookup_layerLoop_of_stray built stray, present]
      rfl
    · rfl
  · intro known id output found _
    by_contra stray
    rcases entries id output stray found with ⟨text, present, _⟩
    exact stray (known id (AList.lookup_isSome.mp (by rw [present]; rfl)))

end Run

/-- The entries of a run are those of its nodes: their identifiers differ, the earlier part
left nothing behind that is not a node, and a node whose task is lost was carried over. -/
structure Accounted (environment : Environment) (nodes : List DagNode) (prior : PriorNodes) :
    Prop where
  unique : (nodes.map DagNode.id).Nodup
  known : ∀ id ∈ prior, id ∈ nodes.map DagNode.id
  carried : ∀ node ∈ nodes, environment.lost node = true → CarriedOver prior node

end DagWorkflow

/-- The counts that a completed run stores are those of its nodes if all entries are those of
its nodes; and only then, unless repeated identifiers and entries that are not those of nodes
happen to make up for each other. -/
theorem nodeCounts_exact (environment : SettledEnvironment) (workflowName : String)
    (nodes : List DagNode) (prior : PriorNodes) {result : WorkflowResult} {metadata : Members}
    (executed : executeDagWorkflow environment.toEnvironment workflowName nodes prior =
      .ok result)
    (completed : result.ending = .completed metadata) :
    (Accounted environment.toEnvironment nodes prior →
      CountsNodes nodes result.nodeOutputs metadata) ∧
    ((nodes.map DagNode.id).Nodup ∨ (∀ id ∈ prior, id ∈ nodes.map DagNode.id) →
      CountsNodes nodes result.nodeOutputs metadata →
      Accounted environment.toEnvironment nodes prior) := by
  rcases executeDagWorkflow_eq_ok executed with ⟨layers, built, rfl⟩
  have finished := (concludeWorkflow_completed completed).1
  rcases concludeWorkflow_metadata completed with ⟨rfl, success⟩
  rw [concludeWorkflow_nodeOutputs]
  rcases @length_strayEntries_layerLoop environment.toEnvironment nodes prior layers built with
    ⟨strayCompleted, strayFailed, straySkipped⟩
  have settled := @settled_layerLoop environment.toEnvironment nodes prior environment.settled
    layers
  have entry := fun unique node member => @mem_layerLoop_iff environment.toEnvironment nodes prior
    unique layers built finished node member
  generalize (layerLoop environment.toEnvironment prior 0 layers
    { nodeOutputs := prepopulate nodes prior }) = loop at *
  have split := countState_eq nodes loop.1.nodeOutputs
  have present := @nodesIn_add nodes loop.1.nodeOutputs settled
  constructor
  · intro accounted
    have own := fun state =>
      @length_ownEntries nodes loop.1.nodeOutputs state accounted.unique
    have noStray := strayCompleted.mpr accounted.known
    have all : (nodes.countP fun node => (loop.1.nodeOutputs.lookup node.id).isSome) =
        nodes.length := by
      rw [List.countP_eq_length]
      intro node member
      rw [AList.lookup_isSome]
      exact (entry accounted.unique node member).mpr (accounted.carried node member)
    have completedCount := split .completed
    have failedCount := split .failed
    have skippedCount := split .skipped
    rw [own] at completedCount failedCount skippedCount
    refine ⟨⟨_, _, _, _, (storesCounts_completionMetadata nodes loop.1).mpr ⟨rfl, rfl, rfl, rfl⟩,
      ?_, ?_, ?_, ?_, rfl⟩, ?_⟩
    all_goals omega
  · intro either counts
    rcases counts with ⟨⟨_, _, _, _, stored, sum, completedNodes, _, _, _⟩, _⟩
    rcases (storesCounts_completionMetadata nodes loop.1).mp stored with ⟨rfl, rfl, rfl, rfl⟩
    have completedCount := split .completed
    have failedCount := split .failed
    have skippedCount := split .skipped
    have unique : (nodes.map DagNode.id).Nodup := by
      rcases either with unique | known
      · exact unique
      · have noStray := strayCompleted.mpr known
        apply @nodup_of_length_le nodes loop.1.nodeOutputs
        omega
    have own := fun state => @length_ownEntries nodes loop.1.nodeOutputs state unique
    rw [own] at completedCount failedCount skippedCount
    have all : (nodes.countP fun node => (loop.1.nodeOutputs.lookup node.id).isSome) =
        nodes.length := by omega
    rw [List.countP_eq_length] at all
    refine ⟨unique, strayCompleted.mp (by omega), fun node member => ?_⟩
    exact (entry unique node member).mp (AList.lookup_isSome.mp (all node member))

namespace NodeCounts

def gate : ApprovalNode where
  base := { id := "gate" }
  approval := { message := "Ship it?", onReject := some { prompt := "Fix it." } }

def ship : DagNode :=
  .bash { base := { id := "ship", dependsOn := ["gate"] }, bash := "ship" }

def nodes : List DagNode := [.approval gate, ship]

def approved : List RunEvent :=
  [{ workflowRunId := "run"
     event := .nodeCompleted gate.base.id { durationMs := 0, nodeOutput := "" } }]

def rejected : List RunEvent :=
  { workflowRunId := "run"
    event := .nodeCompleted (NodeEnvironment.rejectNode gate "Fix it.").id
      { durationMs := 5, nodeOutput := "fixed" } } :: approved

def serde : SerdeJson where
  toString document := ((document.get "node_output").bind Value.asStr).getD ""
  fromStr text := some (.object [("node_output", .string text)])

def priorOf (events : List RunEvent) : Except StoreError NodeOutputTexts :=
  SqlWorkflowEventStore.getCompletedDagNodeOutputs .sqlite serde
    (.ok (recordEvents sqliteDatabase [] events))

def environment : SettledEnvironment :=
  NodeEnvironment.quietEnvironment.toSettled
    (fun _ _ _ _ => NodeEnvironment.settled_failure "unavailable") (fun _ => false)
    (fun _ => .ok (some .running)) (.ok (some .running))

end NodeCounts

open NodeCounts

theorem nodeCounts_exact_approved :
    ∃ prior result metadata, priorOf approved = .ok prior ∧
      executeDagWorkflow NodeCounts.environment.toEnvironment "w" nodes prior = .ok result ∧
      result.ending = .completed metadata ∧ StoresCounts metadata 2 0 0 2 ∧
      CountsNodes nodes result.nodeOutputs metadata := by
  have read : priorOf approved = .ok ((∅ : PriorNodes).insert "gate" "") := rfl
  have executed : executeDagWorkflow NodeCounts.environment.toEnvironment "w" nodes
    ((∅ : PriorNodes).insert "gate" "") = .ok _ := rfl
  have accounted : Accounted NodeCounts.environment.toEnvironment nodes
      ((∅ : PriorNodes).insert "gate" "") := by
    constructor
    · decide
    · decide
    · intro node member lost
      cases lost
  exact ⟨_, _, _, read, executed, rfl, rfl,
    (nodeCounts_exact NodeCounts.environment "w" nodes _ executed rfl).1 accounted⟩

theorem nodeCounts_stray :
    ∃ prior result metadata, priorOf rejected = .ok prior ∧
      executeDagWorkflow NodeCounts.environment.toEnvironment "w" nodes prior = .ok result ∧
      result.ending = .completed metadata ∧ StoresCounts metadata 3 0 0 2 ∧
      ¬CountsNodes nodes result.nodeOutputs metadata := by
  refine ⟨_, _, _, rfl, rfl, rfl, rfl, ?_⟩
  rintro ⟨⟨completed, failed, skipped, total, stored, sum, _⟩, _⟩
  rcases (storesCounts_completionMetadata _ _).mp stored with ⟨rfl, rfl, rfl, rfl⟩
  exact absurd sum (by decide)

end HarnessAgent
