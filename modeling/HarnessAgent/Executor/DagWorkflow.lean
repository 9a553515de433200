import HarnessAgent.Executor.ConditionEvaluator
import HarnessAgent.Executor.TopologicalLayers
import HarnessAgent.Store.WorkflowRuns

/-! # Execution of a workflow graph

The nodes of a layer run as concurrent tasks against the outputs of the earlier
layers. After a layer the results of the tasks that returned are collected, and
the stored status of the run decides whether the next layer starts. The
executors of the single nodes, the loss of tasks and the answers of the store
are given by an environment.
-/

namespace HarnessAgent

/-! ## Trigger rules -/

inductive TriggerResult
  | run
  | skip
  deriving DecidableEq, Repr

def NodeOutput.isCompleted (output : NodeOutput) : Bool :=
  output.state = .completed

def upstreamOutput (nodeOutputs : NodeOutputs) (id : String) : NodeOutput :=
  match nodeOutputs.lookup id with
  | some output => output
  | none => .failed "" none ("upstream '" ++ id ++ "' missing from outputs") none none

def checkTriggerRule (node : DagNode) (nodeOutputs : NodeOutputs) : TriggerResult :=
  if node.dependsOn = [] then .run
  else
    let upstreams := node.dependsOn.map (upstreamOutput nodeOutputs)
    let runs : Bool :=
      match node.base.triggerRule.getD .allSuccess with
      | .allSuccess => upstreams.all NodeOutput.isCompleted
      | .oneSuccess => upstreams.any NodeOutput.isCompleted
      | .noneFailedMinOneSuccess =>
          !upstreams.any (fun upstream => upstream.state = .failed) &&
            upstreams.any NodeOutput.isCompleted
      | .allDone =>
          upstreams.all fun upstream =>
            upstream.state ≠ .pending ∧ upstream.state ≠ .running
    if runs then .run else .skip

theorem upstreamOutput_congr {id : String} (same : left.lookup id = right.lookup id) :
    upstreamOutput left id = upstreamOutput right id := by
  unfold upstreamOutput
  rw [same]

variable {node : DagNode}

theorem checkTriggerRule_congr (same : ∀ id ∈ node.dependsOn, left.lookup id = right.lookup id) :
    checkTriggerRule node left = checkTriggerRule node right := by
  have upstreams : node.dependsOn.map (upstreamOutput left) =
      node.dependsOn.map (upstreamOutput right) := by
    apply List.map_congr_left
    intro id member
    exact upstreamOutput_congr (same id member)
  unfold checkTriggerRule
  rw [upstreams]

/-! ## Nodes completed by an earlier part of the run -/

abbrev PriorNodes := AList (fun _ : String => String)

def priorOutput (text : String) : NodeOutput :=
  .completed text none none none

def DagNode.alwaysRuns (node : DagNode) : Bool :=
  node.base.alwaysRun = some true

def alwaysRunIds (nodes : List DagNode) : List String :=
  (nodes.filter DagNode.alwaysRuns).map DagNode.id

def prepopulate (nodes : List DagNode) (prior : PriorNodes) : NodeOutputs :=
  prior.entries.foldl
    (fun outputs entry =>
      if entry.1 ∈ alwaysRunIds nodes then outputs
      else outputs.insert entry.1 (priorOutput entry.2))
    ∅

/-! ## Tasks -/

structure TaskContext where
  allOutputs : NodeOutputs
  resumeSession : Option String
  isParallel : Bool

structure NodeResult where
  output : NodeOutput
  cost : Option F64 := none
  deriving DecidableEq, Repr

/-- Everything outside the orchestrator: the executors of the nodes, the tasks
that panic, and the status the store reports after each layer and at the end. -/
structure Environment where
  serde : SerdeJson
  dispatch : DagNode → TaskContext → NodeResult
  lost : DagNode → Bool
  statusAfterLayer : Nat → Except StoreError (Option WorkflowRunStatus)
  statusAtEnd : Except StoreError (Option WorkflowRunStatus)

namespace DagWorkflow

def skippedResult : NodeResult := { output := .skipped "" }

/-- The outputs a node sees: the earlier layers, and its own output of an
earlier part of the run if that was not carried over. -/
def visibleOutputs (prior : PriorNodes) (snapshot : NodeOutputs) (node : DagNode) :
    NodeOutputs :=
  match prior.lookup node.id with
  | none => snapshot
  | some text =>
      if node.id ∈ snapshot then snapshot else snapshot.insert node.id (priorOutput text)

section Run

variable (environment : Environment) (prior : PriorNodes)

def runTask (snapshot : NodeOutputs) (resumeSession : Option String) (isParallel : Bool)
    (node : DagNode) : NodeResult :=
  match prior.lookup node.id, node.alwaysRuns with
  | some text, false => { output := priorOutput text }
  | _, _ =>
      let allOutputs := visibleOutputs prior snapshot node
      let dispatched := environment.dispatch node { allOutputs, resumeSession, isParallel }
      match checkTriggerRule node allOutputs with
      | .skip => skippedResult
      | .run =>
          match node.base.when with
          | none => dispatched
          | some expr =>
              match ConditionEvaluator.evaluateCondition environment.serde allOutputs expr with
              | .error _ => skippedResult
              | .ok condition =>
                  if !condition.parsed then skippedResult
                  else if !condition.result then skippedResult
                  else dispatched

structure Progress where
  nodeOutputs : NodeOutputs
  lastSequentialSessionId : Option String := none
  totalCostUsd : F64 := F64.zero

def collect (isParallel : Bool) (progress : Progress) (id : String) (result : NodeResult) :
    Progress where
  nodeOutputs := progress.nodeOutputs.insert id result.output
  lastSequentialSessionId :=
    match isParallel, result.output with
    | false, .completed _ (some session) _ _ => some session
    | _, _ => progress.lastSequentialSessionId
  totalCostUsd :=
    match result.cost with
    | some cost => progress.totalCostUsd + cost
    | none => progress.totalCostUsd

def runLayer (progress : Progress) (layer : List DagNode) : Progress :=
  let isParallel : Bool := decide (1 < layer.length)
  let resumeSession := if isParallel then none else progress.lastSequentialSessionId
  let task := runTask environment prior progress.nodeOutputs resumeSession isParallel
  layer.foldl
    (fun collected node =>
      if environment.lost node then collected
      else collect isParallel collected node.id (task node))
    { progress with lastSequentialSessionId := resumeSession }

def stops : Except StoreError (Option WorkflowRunStatus) → Bool
  | .ok (some status) => status ≠ .running
  | .ok none => true
  | .error _ => false

/-- The message for a run that is stopped between layers; a pause is silent. -/
def stopNotice (answer : Except StoreError (Option WorkflowRunStatus))
    (layerNumber totalLayers : Nat) : Option String :=
  let notice (status : String) :=
    some ("⚠️ **Workflow stopped** (" ++ status ++ "): DAG execution stopped after layer " ++
      toString layerNumber ++ "/" ++ toString totalLayers)
  match answer with
  | .ok none => notice "deleted"
  | .ok (some .paused) => none
  | .ok (some status) => notice (statusToStr status)
  | .error _ => none

def layerLoop : Nat → List (List DagNode) → Progress → Progress × Option Nat
  | _, [], progress => (progress, none)
  | index, layer :: rest, progress =>
      let progress := runLayer environment prior progress layer
      if stops (environment.statusAfterLayer index) then (progress, some index)
      else layerLoop (index + 1) rest progress

end Run

/-! ## Completion -/

def countState (nodeOutputs : NodeOutputs) (state : NodeState) : Nat :=
  (nodeOutputs.entries.filter fun entry => entry.2.state = state).length

def failedEntries (nodeOutputs : NodeOutputs) : List (String × NodeOutput) :=
  (nodeOutputs.entries.filter fun entry => entry.2.state = .failed).map
    fun entry => (entry.1, entry.2)

def noSuccessMessage (workflowName : String) (nodeOutputs : NodeOutputs) : String :=
  let failedNodes := (failedEntries nodeOutputs).map Prod.fst
  if failedNodes ≠ [] then
    "DAG workflow '" ++ workflowName ++ "' failed: node" ++
      (if 1 < failedNodes.length then "s" else "") ++ " " ++ ", ".intercalate failedNodes ++
      " failed. " ++ toString (countState nodeOutputs .skipped) ++
      " downstream nodes were skipped."
  else
    "DAG workflow '" ++ workflowName ++ "' completed with no successful nodes. " ++
      "Check node conditions, trigger rules, and upstream failures."

def failureDetail : String × NodeOutput → String
  | (id, .failed _ _ error _ _) => "'" ++ id ++ "': " ++ error
  | (id, _) => "'" ++ id ++ "': unknown"

def failuresMessage (workflowName : String) (nodeOutputs : NodeOutputs) : String :=
  "DAG workflow '" ++ workflowName ++ "' completed with failures: " ++
    "; ".intercalate ((failedEntries nodeOutputs).map failureDetail)

def completionMetadata (nodes : List DagNode) (progress : Progress) : Members :=
  let count (state : NodeState) : Value :=
    .number (.posInt (countState progress.nodeOutputs state))
  let counts : Value := .object
    [("completed", count .completed), ("failed", count .failed), ("skipped", count .skipped),
      ("total", .number (.posInt nodes.length))]
  ("node_counts", counts) ::
    if progress.totalCostUsd.isPositive then
      [("total_cost_usd", Value.ofF64 progress.totalCostUsd)]
    else []

def terminalOutput (nodes : List DagNode) (nodeOutputs : NodeOutputs) : Option String :=
  let dependencies := nodes.flatMap DagNode.dependsOn
  (nodes.filter fun node => node.id ∉ dependencies).findSome? fun node =>
    match nodeOutputs.lookup node.id with
    | some (.completed output ..) => if output.isBlank then none else some output
    | _ => none

end DagWorkflow

inductive WorkflowEnding
  | stopped (notice : Option String)
  | failed (message : String)
  | completed (metadata : Members)
  deriving DecidableEq, Repr

structure WorkflowResult where
  nodeOutputs : NodeOutputs
  ending : WorkflowEnding
  output : Option String := none

open DagWorkflow

def finishWorkflow (environment : Environment) (workflowName : String)
    (nodes : List DagNode) (progress : Progress) : WorkflowResult :=
  let nodeOutputs := progress.nodeOutputs
  if stops environment.statusAtEnd then { nodeOutputs, ending := .stopped none }
  else if countState nodeOutputs .completed = 0 then
    { nodeOutputs, ending := .failed (noSuccessMessage workflowName nodeOutputs) }
  else if 0 < countState nodeOutputs .failed then
    { nodeOutputs, ending := .failed (failuresMessage workflowName nodeOutputs) }
  else
    { nodeOutputs,
      ending := .completed (completionMetadata nodes progress),
      output := terminalOutput nodes nodeOutputs }

/-- The outcome of a run whose loop over the layers has ended. -/
def concludeWorkflow (environment : Environment) (workflowName : String)
    (nodes : List DagNode) (totalLayers : Nat) : Progress × Option Nat → WorkflowResult
  | (progress, none) => finishWorkflow environment workflowName nodes progress
  | (progress, some index) =>
      { nodeOutputs := progress.nodeOutputs,
        ending := .stopped
          (stopNotice (environment.statusAfterLayer index) (index + 1) totalLayers) }

def executeDagWorkflow (environment : Environment) (workflowName : String)
    (nodes : List DagNode) (prior : PriorNodes) : Except LayerPanic WorkflowResult := do
  let layers ← buildTopologicalLayers nodes
  let loop := layerLoop environment prior 0 layers { nodeOutputs := prepopulate nodes prior }
  return concludeWorkflow environment workflowName nodes layers.length loop

namespace DagWorkflow

/-! ## Entries of the collected outputs -/

theorem lookup_prepopulate (nodes : List DagNode) (prior : PriorNodes) (id : String) :
    (prepopulate nodes prior).lookup id =
      if id ∈ alwaysRunIds nodes then none else (prior.lookup id).map priorOutput := by
  have general : ∀ (entries : List (Sigma fun _ : String => String)) (outputs : NodeOutputs),
      (entries.map Sigma.fst).Nodup →
      (entries.foldl
        (fun outputs entry =>
          if entry.1 ∈ alwaysRunIds nodes then outputs
          else outputs.insert entry.1 (priorOutput entry.2)) outputs).lookup id =
        if id ∈ alwaysRunIds nodes then outputs.lookup id
        else ((entries.dlookup id).map priorOutput).or (outputs.lookup id) := by
    intro entries
    induction entries with
    | nil => intro outputs _; simp
    | cons entry rest induction =>
        intro outputs nodup
        rcases entry with ⟨key, text⟩
        rw [List.map_cons, List.nodup_cons] at nodup
        rw [List.foldl_cons, induction _ nodup.2]
        by_cases same : id = key
        · subst same
          have absent : rest.dlookup id = none :=
            List.dlookup_eq_none.mpr nodup.1
          by_cases forced : id ∈ alwaysRunIds nodes
          · simp [forced]
          · simp [forced, absent, AList.lookup_insert]
        · rw [List.dlookup_cons_ne _ _ same]
          by_cases forced : key ∈ alwaysRunIds nodes
          · rw [if_pos forced]
          · rw [if_neg forced, AList.lookup_insert_ne same]
  rw [prepopulate, general prior.entries ∅ prior.nodupKeys, AList.lookup_empty]
  simp [AList.lookup]

section Collection

variable {environment : Environment} {prior : PriorNodes}

def layerTask (environment : Environment) (prior : PriorNodes) (progress : Progress)
    (layer : List DagNode) (node : DagNode) : NodeResult :=
  runTask environment prior progress.nodeOutputs
    (if 1 < layer.length then none else progress.lastSequentialSessionId)
    (1 < layer.length) node

theorem lookup_collect_rule {holds : Option NodeOutput → Prop} {id : String}
    {isParallel : Bool} {task : DagNode → NodeResult} {layer : List DagNode} {start : Progress}
    (initial : holds (start.nodeOutputs.lookup id))
    (returns : ∀ node ∈ layer, environment.lost node = false → node.id = id →
      holds (some (task node).output)) :
    holds ((layer.foldl
      (fun collected node =>
        if environment.lost node then collected
        else collect isParallel collected node.id (task node))
      start).nodeOutputs.lookup id) := by
  apply List.foldlRecOn (motive := fun collected : Progress =>
    holds (collected.nodeOutputs.lookup id))
  · exact initial
  · intro collected kept node member
    cases lost : environment.lost node with
    | true => simpa [lost] using kept
    | false =>
        by_cases same : node.id = id
        · have replaced := returns node member lost same
          subst same
          simpa [collect, AList.lookup_insert] using replaced
        · have different : id ≠ node.id := fun equal => same equal.symm
          simpa [collect, AList.lookup_insert_ne different] using kept

theorem lookup_runLayer_rule {holds : Option NodeOutput → Prop} {id : String}
    {layer : List DagNode} {progress : Progress}
    (initial : holds (progress.nodeOutputs.lookup id))
    (returns : ∀ node ∈ layer, environment.lost node = false → node.id = id →
      holds (some (layerTask environment prior progress layer node).output)) :
    holds ((runLayer environment prior progress layer).nodeOutputs.lookup id) := by
  unfold runLayer
  apply lookup_collect_rule
  · exact initial
  · intro node member returned same
    simpa [layerTask] using returns node member returned same

variable {layer : List DagNode}

theorem lookup_runLayer_of_absent {id : String}
    (absent : ∀ node ∈ layer, environment.lost node = false → node.id ≠ id) (progress : Progress) :
    (runLayer environment prior progress layer).nodeOutputs.lookup id =
      progress.nodeOutputs.lookup id := by
  apply @lookup_runLayer_rule environment prior
    (fun entry => entry = progress.nodeOutputs.lookup id)
  · rfl
  · intro node member returned same
    exact absurd same (absent node member returned)

theorem lookup_runLayer_of_mem (unique : (layer.map DagNode.id).Nodup) (member : node ∈ layer)
    (returned : environment.lost node = false) (progress : Progress) :
    (runLayer environment prior progress layer).nodeOutputs.lookup node.id =
      some (layerTask environment prior progress layer node).output := by
  rcases List.append_of_mem member with ⟨before, after, rfl⟩
  have later : ∀ other ∈ after, other.id ≠ node.id := by
    rw [List.map_append, List.map_cons, List.nodup_append, List.nodup_cons] at unique
    intro other otherMember same
    apply unique.2.1.1
    rw [← same]
    exact List.mem_map_of_mem otherMember
  rw [layerTask, runLayer, List.foldl_append, List.foldl_cons]
  apply @lookup_collect_rule environment (fun entry => entry = some _)
  · simp [returned, collect, AList.lookup_insert]
  · intro other otherMember _ same
    exact absurd same (later other otherMember)

theorem lookup_layerLoop_of_absent {id : String}
    (absent : ∀ node ∈ layers.flatten, environment.lost node = false → node.id ≠ id) (index : Nat)
    (progress : Progress) :
    (layerLoop environment prior index layers progress).1.nodeOutputs.lookup id =
      progress.nodeOutputs.lookup id := by
  induction layers generalizing index progress with
  | nil => rfl
  | cons layer rest induction =>
      have absentHere : ∀ node ∈ layer, environment.lost node = false → node.id ≠ id := by
        intro node member
        exact absent node (by simp [member])
      have absentLater : ∀ node ∈ rest.flatten, environment.lost node = false → node.id ≠ id := by
        intro node member
        exact absent node (by simp [List.mem_flatten.mp member])
      rw [layerLoop]
      split
      · exact lookup_runLayer_of_absent absentHere progress
      · rw [induction absentLater, lookup_runLayer_of_absent absentHere]

/-- A loop that starts with some layer records the results of this layer, and no
later layer replaces them. -/
theorem lookup_layerLoop_of_mem (unique : (((layer :: rest).flatten).map DagNode.id).Nodup)
    (member : node ∈ layer) (returned : environment.lost node = false) (index : Nat)
    (progress : Progress) :
    (layerLoop environment prior index (layer :: rest) progress).1.nodeOutputs.lookup node.id =
      some (layerTask environment prior progress layer node).output := by
  rw [List.flatten_cons, List.map_append, List.nodup_append] at unique
  have recorded :
      (runLayer environment prior progress layer).nodeOutputs.lookup node.id =
        some (layerTask environment prior progress layer node).output :=
    lookup_runLayer_of_mem unique.1 member returned progress
  rw [layerLoop]
  split
  · exact recorded
  · rw [lookup_layerLoop_of_absent, recorded]
    intro other otherMember _ same
    exact unique.2.2 node.id (List.mem_map_of_mem member) other.id
      (List.mem_map_of_mem otherMember) same.symm

theorem isSome_lookup_layerLoop (unique : (layers.flatten.map DagNode.id).Nodup)
    (member : node ∈ layers.flatten) (returned : environment.lost node = false)
    (finished : (layerLoop environment prior index layers progress).2 = none) :
    ((layerLoop environment prior index layers progress).1.nodeOutputs.lookup
      node.id).isSome := by
  induction layers generalizing index progress with
  | nil => cases member
  | cons layer rest induction =>
      rw [List.flatten_cons, List.mem_append] at member
      rcases member with here | later
      · rw [lookup_layerLoop_of_mem unique here returned]
        rfl
      · rw [List.flatten_cons, List.map_append, List.nodup_append] at unique
        rw [layerLoop] at finished ⊢
        split at finished
        · cases finished
        · rename_i continues
          rw [if_neg continues]
          exact induction unique.2.1 later finished

end Collection

/-! ## Completed runs -/

theorem countState_eq_zero {nodeOutputs : NodeOutputs} {state : NodeState} :
    countState nodeOutputs state = 0 ↔
      ∀ id output, nodeOutputs.lookup id = some output → output.state ≠ state := by
  rw [countState, List.length_eq_zero_iff, List.filter_eq_nil_iff]
  constructor
  · intro absent id output found
    simpa using absent ⟨id, output⟩ (AList.mem_lookup_iff.mp found)
  · intro absent entry member
    rcases entry with ⟨id, output⟩
    simpa using absent id output (AList.mem_lookup_iff.mpr member)

variable {environment : Environment} {workflowName : String} {nodes : List DagNode}
  {prior : PriorNodes}

theorem executeDagWorkflow_of_layers (environment : Environment) (workflowName : String)
    (prior : PriorNodes) (built : buildTopologicalLayers nodes = .ok layers) :
    executeDagWorkflow environment workflowName nodes prior =
      .ok (concludeWorkflow environment workflowName nodes layers.length
        (layerLoop environment prior 0 layers { nodeOutputs := prepopulate nodes prior })) := by
  rw [executeDagWorkflow, built]
  rfl

theorem executeDagWorkflow_eq_ok
    (executed : executeDagWorkflow environment workflowName nodes prior = .ok result) :
    ∃ layers, buildTopologicalLayers nodes = .ok layers ∧
      result = concludeWorkflow environment workflowName nodes layers.length
        (layerLoop environment prior 0 layers { nodeOutputs := prepopulate nodes prior }) := by
  cases built : buildTopologicalLayers nodes with
  | error panic =>
      rw [executeDagWorkflow, built] at executed
      cases executed
  | ok layers =>
      rw [executeDagWorkflow_of_layers environment workflowName prior built] at executed
      cases executed
      exact ⟨layers, rfl, rfl⟩

theorem concludeWorkflow_nodeOutputs (totalLayers : Nat) (loop : Progress × Option Nat) :
    (concludeWorkflow environment workflowName nodes totalLayers loop).nodeOutputs =
      loop.1.nodeOutputs := by
  rcases loop with ⟨progress, stopped⟩
  cases stopped with
  | some index => rfl
  | none =>
      rw [concludeWorkflow, finishWorkflow]
      split_ifs <;> rfl

theorem concludeWorkflow_completed
    (completed : (concludeWorkflow environment workflowName nodes totalLayers loop).ending =
      .completed metadata) :
    loop.2 = none ∧
      ∀ id output, loop.1.nodeOutputs.lookup id = some output → output.state ≠ .failed := by
  rcases loop with ⟨progress, stopped⟩
  cases stopped with
  | some index => cases completed
  | none =>
      rw [concludeWorkflow, finishWorkflow] at completed
      split_ifs at completed with stopped noSuccess failures
      have noneFailed : countState progress.nodeOutputs .failed = 0 := by omega
      exact ⟨rfl, countState_eq_zero.mp noneFailed⟩

theorem mem_alwaysRunIds (unique : (nodes.map DagNode.id).Nodup) (member : node ∈ nodes) :
    node.id ∈ alwaysRunIds nodes ↔ node.alwaysRuns = true := by
  rw [alwaysRunIds, List.mem_map]
  constructor
  · rintro ⟨other, otherMember, same⟩
    rw [List.mem_filter] at otherMember
    have equal : other = node :=
      List.inj_on_of_nodup_map unique otherMember.1 member same
    rw [← equal]
    exact otherMember.2
  · intro forced
    exact ⟨node, List.mem_filter.mpr ⟨member, forced⟩, rfl⟩

def CarriedOver (prior : PriorNodes) (node : DagNode) : Prop :=
  node.alwaysRuns = false ∧ node.id ∈ prior

theorem isSome_lookup_prepopulate (unique : (nodes.map DagNode.id).Nodup) (member : node ∈ nodes) :
    ((prepopulate nodes prior).lookup node.id).isSome ↔ CarriedOver prior node := by
  rw [lookup_prepopulate, CarriedOver, ← AList.lookup_isSome]
  have forced := mem_alwaysRunIds unique member
  cases always : node.alwaysRuns with
  | true => simp [forced.mpr always]
  | false =>
      have notForced : node.id ∉ alwaysRunIds nodes := by
        rw [forced, always]
        exact Bool.false_ne_true
      simp [notForced]

/-- At the end of a loop that was not stopped, a node has an entry unless its task was lost
and it was not carried over. -/
theorem mem_layerLoop_iff (unique : (nodes.map DagNode.id).Nodup)
    {layers : List (List DagNode)} (built : buildTopologicalLayers nodes = .ok layers)
    (finished : (layerLoop environment prior 0 layers
      { nodeOutputs := prepopulate nodes prior }).2 = none)
    {node : DagNode} (member : node ∈ nodes) :
    node.id ∈ (layerLoop environment prior 0 layers
      { nodeOutputs := prepopulate nodes prior }).1.nodeOutputs ↔
      (environment.lost node = true → CarriedOver prior node) := by
  have complete : layers.flatten.Perm nodes := (TopologicalLayers.greedy_of_build unique built).2
  have layersUnique : (layers.flatten.map DagNode.id).Nodup :=
    (complete.map DagNode.id).nodup_iff.mpr unique
  rw [← AList.lookup_isSome]
  cases lost : environment.lost node with
  | true =>
      have absent : ∀ other ∈ layers.flatten, environment.lost other = false →
          other.id ≠ node.id := by
        intro other otherMember returned same
        have equal : other = node :=
          List.inj_on_of_nodup_map unique (complete.mem_iff.mp otherMember) member same
        rw [equal, lost] at returned
        cases returned
      rw [lookup_layerLoop_of_absent absent, isSome_lookup_prepopulate unique member]
      simp
  | false =>
      have entry := isSome_lookup_layerLoop layersUnique (complete.mem_iff.mpr member) lost finished
      simp [entry]

end DagWorkflow

/-- A run that is marked completed has an entry for every node and no failed
entry, exactly when every lost task belongs to a node that was carried over. -/
theorem executeDagWorkflow_completed_iff (environment : Environment) (workflowName : String)
    (nodes : List DagNode) (unique : (nodes.map DagNode.id).Nodup)
    (closed : (workflowGraph nodes unique).Closed)
    (acyclic : (workflowGraph nodes unique).Acyclic) (prior : PriorNodes) :
    ∃ result, executeDagWorkflow environment workflowName nodes prior = .ok result ∧
      ∀ metadata, result.ending = .completed metadata →
        (((∀ node ∈ nodes, node.id ∈ result.nodeOutputs) ∧
            ∀ id output, result.nodeOutputs.lookup id = some output → output.state ≠ .failed) ↔
          ∀ node ∈ nodes, environment.lost node = true → CarriedOver prior node) := by
  rcases (TopologicalLayers.build_ok_iff unique).mpr ⟨closed, acyclic⟩ with ⟨layers, built⟩
  refine ⟨_, executeDagWorkflow_of_layers environment workflowName prior built,
    fun metadata completed => ?_⟩
  rcases concludeWorkflow_completed completed with ⟨finished, noFailure⟩
  rw [concludeWorkflow_nodeOutputs]
  have entry := fun node member => @mem_layerLoop_iff environment nodes prior unique layers built
    finished node member
  constructor
  · rintro ⟨entries, _⟩ node member
    exact (entry node member).mp (entries node member)
  · intro carried
    refine ⟨fun node member => ?_, noFailure⟩
    exact (entry node member).mpr (carried node member)

namespace DagWorkflow

def independent : List DagNode :=
  [.prompt { base := { id := "a" }, prompt := "p" },
    .prompt { base := { id := "b" }, prompt := "p" }]

theorem independent_unique : (independent.map DagNode.id).Nodup := by decide

theorem independent_wellFormed :
    (workflowGraph independent independent_unique).Closed ∧
      (workflowGraph independent independent_unique).Acyclic :=
  (TopologicalLayers.build_ok_iff independent_unique).mp ⟨[independent], by decide⟩

def answering (lost : DagNode → Bool) : Environment where
  serde := { toString := fun _ => "", fromStr := fun _ => none }
  dispatch := fun node _ => { output := .completed node.id none none none }
  lost := lost
  statusAfterLayer := fun _ => .ok (some .running)
  statusAtEnd := .ok (some .running)

end DagWorkflow

theorem executeDagWorkflow_completed_iff_independent :
    ∃ result metadata,
      executeDagWorkflow (answering fun _ => false) "w" independent ∅ = .ok result ∧
      result.ending = .completed metadata ∧
      (∀ node ∈ independent, node.id ∈ result.nodeOutputs) ∧
      ∀ id output, result.nodeOutputs.lookup id = some output → output.state ≠ .failed := by
  rcases executeDagWorkflow_completed_iff (answering fun _ => false) "w" independent
    independent_unique independent_wellFormed.1 independent_wellFormed.2 ∅ with
    ⟨result, run, holds⟩
  have known : executeDagWorkflow (answering fun _ => false) "w" independent ∅ = .ok _ := rfl
  rw [run] at known
  cases known
  have noneLost : ∀ node ∈ independent, (answering fun _ => false).lost node = true →
      CarriedOver ∅ node := by
    intro node member lost
    exact absurd lost Bool.false_ne_true
  exact ⟨_, _, run, rfl, (holds _ rfl).mpr noneLost⟩

/-- The task of one node panics; the run is marked completed without its entry. -/
theorem executeDagWorkflow_completed_lost :
    ((workflowGraph independent independent_unique).Closed ∧
      (workflowGraph independent independent_unique).Acyclic) ∧
    ∃ result metadata,
      executeDagWorkflow (answering fun node => node.id = "b") "w" independent ∅ = .ok result ∧
      result.ending = .completed metadata ∧
      ∃ node ∈ independent, node.id ∉ result.nodeOutputs :=
  ⟨independent_wellFormed, _, _, rfl, rfl, independent.get ⟨1, by decide⟩, by decide, by decide⟩

/-! ## Conditions of nodes -/

namespace DagWorkflow

section Conditions

variable (environment : Environment) (prior : PriorNodes)

/-- The loop gets from one point of a run to another without being stopped. -/
inductive Reaches : Nat → List (List DagNode) → Progress →
    Nat → List (List DagNode) → Progress → Prop
  | here {index : Nat} {layers : List (List DagNode)} {progress : Progress} :
      Reaches index layers progress index layers progress
  | next {index target : Nat} {layer : List DagNode} {rest remaining : List (List DagNode)}
      {progress reached : Progress}
      (continues : stops (environment.statusAfterLayer index) = false)
      (later : Reaches (index + 1) rest (runLayer environment prior progress layer)
        target remaining reached) :
      Reaches index (layer :: rest) progress target remaining reached

variable {environment prior}

variable {index : Nat} {layers : List (List DagNode)} {progress : Progress}

variable {reached : Progress} {remaining : List (List DagNode)}

theorem layerLoop_of_reaches
    (reaches : Reaches environment prior index layers progress target remaining reached) :
    layerLoop environment prior index layers progress =
      layerLoop environment prior target remaining reached := by
  induction reaches with
  | here => rfl
  | next continues later induction =>
      rw [layerLoop, if_neg (by rw [continues]; exact Bool.false_ne_true)]
      exact induction

theorem Reaches.suffix
    (reaches : Reaches environment prior index layers progress target remaining reached) :
    remaining <:+ layers := by
  induction reaches with
  | here => exact List.suffix_rfl
  | next continues later induction => exact induction.trans (List.suffix_cons _ _)

theorem Reaches.invariant {holds : Progress → Prop} {target : Nat}
    (reaches : Reaches environment prior index layers progress target remaining reached)
    (preserves : ∀ layer ∈ layers, ∀ progress, holds progress →
      holds (runLayer environment prior progress layer)) (initial : holds progress) :
    holds reached := by
  induction reaches with
  | here => exact initial
  | next continues later induction =>
      apply induction
      · intro layer member
        exact preserves layer (List.mem_cons_of_mem _ member)
      · exact preserves _ List.mem_cons_self _ initial

structure EvaluatesCondition (prior : PriorNodes) (snapshot : NodeOutputs) (node : DagNode)
    (expr : String) : Prop where
  condition : node.base.when = some expr
  notCarried : ¬CarriedOver prior node
  triggered : checkTriggerRule node (visibleOutputs prior snapshot node) = .run

theorem runTask_of_evaluates (evaluates : EvaluatesCondition prior snapshot node expr)
    (session : Option String) (isParallel : Bool) :
    runTask environment prior snapshot session isParallel node =
      match ConditionEvaluator.evaluateCondition environment.serde
        (visibleOutputs prior snapshot node) expr with
      | .error _ => skippedResult
      | .ok condition =>
          if !condition.parsed then skippedResult
          else if !condition.result then skippedResult
          else environment.dispatch node
            { allOutputs := visibleOutputs prior snapshot node,
              resumeSession := session, isParallel } := by
  rw [runTask]
  split
  · rename_i text found notForced
    exact absurd ⟨notForced, AList.lookup_isSome.mp (by rw [found]; rfl)⟩ evaluates.notCarried
  · simp only [evaluates.triggered, evaluates.condition]

structure Dispatched (environment : Environment) (prior : PriorNodes) (snapshot : NodeOutputs)
    (node : DagNode) : Prop where
  notCarried : ¬CarriedOver prior node
  triggered : checkTriggerRule node (visibleOutputs prior snapshot node) = .run
  condition : ∀ expr, node.base.when = some expr →
    ConditionEvaluator.evaluateCondition environment.serde
      (visibleOutputs prior snapshot node) expr = .ok ConditionEvaluator.parsedTrue

theorem runTask_of_dispatched (dispatched : Dispatched environment prior snapshot node)
    (session : Option String) (isParallel : Bool) :
    runTask environment prior snapshot session isParallel node =
      environment.dispatch node
        { allOutputs := visibleOutputs prior snapshot node,
          resumeSession := session, isParallel } := by
  cases condition : node.base.when with
  | none =>
      rw [runTask]
      split
      · rename_i text found notForced
        exact absurd ⟨notForced, AList.lookup_isSome.mp (by rw [found]; rfl)⟩
          dispatched.notCarried
      · simp only [dispatched.triggered, condition]
  | some expr =>
      rw [runTask_of_evaluates ⟨condition, dispatched.notCarried, dispatched.triggered⟩,
        dispatched.condition expr condition]
      rfl

theorem runTask_cases (environment : Environment) (prior : PriorNodes) (snapshot : NodeOutputs)
    (session : Option String) (isParallel : Bool) (node : DagNode) :
    Dispatched environment prior snapshot node ∨
      runTask environment prior snapshot session isParallel node = skippedResult ∨
      ∃ text, runTask environment prior snapshot session isParallel node =
        { output := priorOutput text } := by
  unfold runTask
  split
  · rename_i text _ _
    exact .inr (.inr ⟨text, rfl⟩)
  · rename_i notCarried
    simp only
    cases triggered : checkTriggerRule node (visibleOutputs prior snapshot node) with
    | skip => exact .inr (.inl rfl)
    | run =>
        have fresh : ¬CarriedOver prior node := by
          rintro ⟨notForced, carried⟩
          rcases Option.isSome_iff_exists.mp (AList.lookup_isSome.mpr carried) with ⟨text, found⟩
          exact notCarried text found notForced
        cases condition : node.base.when with
        | none => exact .inl ⟨fresh, triggered, fun expr given => by simp [condition] at given⟩
        | some expr =>
            simp only
            cases evaluated : ConditionEvaluator.evaluateCondition environment.serde
                (visibleOutputs prior snapshot node) expr with
            | error error => exact .inr (.inl rfl)
            | ok result =>
                simp only
                split_ifs with unparsed isFalse
                · exact .inr (.inl rfl)
                · exact .inr (.inl rfl)
                · left
                  refine ⟨fresh, triggered, fun other given => ?_⟩
                  rw [condition] at given
                  cases given
                  rcases result with ⟨value, parsed⟩
                  have isParsed : parsed = true := by simpa using unparsed
                  have isTrue : value = true := by simpa using isFalse
                  rw [evaluated, isParsed, isTrue]
                  rfl

theorem lookup_result_of_reaches (workflowName : String) (unique : (nodes.map DagNode.id).Nodup)
    (built : buildTopologicalLayers nodes = .ok layers)
    (reached : Reaches environment prior 0 layers { nodeOutputs := prepopulate nodes prior }
      index (layer :: later) progress) (member : node ∈ layer)
    (returned : environment.lost node = false) :
    ∃ result, executeDagWorkflow environment workflowName nodes prior = .ok result ∧
      result.nodeOutputs.lookup node.id =
        some (layerTask environment prior progress layer node).output := by
  refine ⟨_, executeDagWorkflow_of_layers environment workflowName prior built, ?_⟩
  have layersUnique : (layers.flatten.map DagNode.id).Nodup :=
    ((TopologicalLayers.greedy_of_build unique built).2.map DagNode.id).nodup_iff.mpr unique
  have remainingUnique : (((layer :: later).flatten).map DagNode.id).Nodup :=
    layersUnique.sublist (reached.suffix.sublist.flatten.map DagNode.id)
  rw [concludeWorkflow_nodeOutputs, layerLoop_of_reaches reached]
  exact lookup_layerLoop_of_mem remainingUnique member returned index progress

end Conditions

end DagWorkflow

theorem whenCondition_recorded_iff (environment : Environment) (workflowName : String)
    (nodes : List DagNode) (unique : (nodes.map DagNode.id).Nodup) (prior : PriorNodes)
    {layers : List (List DagNode)} (built : buildTopologicalLayers nodes = .ok layers)
    {index : Nat} {layer : List DagNode} {later : List (List DagNode)} {progress : Progress}
    (reached : Reaches environment prior 0 layers { nodeOutputs := prepopulate nodes prior }
      index (layer :: later) progress)
    {node : DagNode} {expr : String} (member : node ∈ layer)
    (returned : environment.lost node = false)
    (evaluates : EvaluatesCondition prior progress.nodeOutputs node expr) :
    ∃ result, executeDagWorkflow environment workflowName nodes prior = .ok result ∧
      let recorded := (result.nodeOutputs.lookup node.id).map NodeOutput.state
      let evaluation := ConditionEvaluator.evaluateCondition environment.serde
        (visibleOutputs prior progress.nodeOutputs node) expr
      ((∀ error, evaluation = .error error →
          recorded = some .failed ∧ ∀ metadata, result.ending ≠ .completed metadata) ∧
        ∀ condition, evaluation = .ok condition → condition.parsed = false →
          recorded = some .skipped) ↔
      ¬ConditionEvaluator.ReachesUnresolvable environment.serde
        (visibleOutputs prior progress.nodeOutputs node) expr := by
  rcases lookup_result_of_reaches workflowName unique built reached member returned with
    ⟨result, run, entry⟩
  refine ⟨result, run, ?_⟩
  intro recorded evaluation
  have state : recorded = some (layerTask environment prior progress layer node).output.state := by
    simp only [recorded, entry, Option.map_some]
  rw [layerTask, runTask_of_evaluates evaluates] at state
  rw [← ConditionEvaluator.evaluateCondition_error_iff]
  cases evaluated : evaluation with
  | error error =>
      have skipped : recorded = some .skipped := by
        rw [show ConditionEvaluator.evaluateCondition _ _ _ = _ from evaluated] at state
        exact state
      refine iff_of_false (fun holds => ?_) (fun noError => noError ⟨error, evaluated⟩)
      have failed := (holds.1 error rfl).1
      rw [skipped] at failed
      cases failed
  | ok condition =>
      rw [show ConditionEvaluator.evaluateCondition _ _ _ = _ from evaluated]
      refine iff_of_true ⟨nofun, ?_⟩ nofun
      intro parsed same notParsed
      cases same
      rw [show ConditionEvaluator.evaluateCondition _ _ _ = _ from evaluated] at state
      simpa [notParsed, skippedResult, NodeOutput.state] using state

namespace DagWorkflow

def source : DagNode := .prompt { base := { id := "a" }, prompt := "p" }

def guarded (expr : String) : DagNode :=
  .prompt { base := { id := "b", dependsOn := ["a"], when := some expr }, prompt := "p" }

def afterSource : Progress :=
  runLayer (answering fun _ => false) ∅ { nodeOutputs := ∅ } [source]

end DagWorkflow

theorem whenCondition_recorded_iff_notParsed :
    ∃ result,
      executeDagWorkflow (answering fun _ => false) "w" [source, guarded "always"] ∅ =
        .ok result ∧
      (result.nodeOutputs.lookup "b").map NodeOutput.state = some .skipped := by
  have built : buildTopologicalLayers [source, guarded "always"] =
      .ok [[source], [guarded "always"]] := by decide
  have reached : Reaches (answering fun _ => false) ∅ 0 [[source], [guarded "always"]]
      { nodeOutputs := prepopulate [source, guarded "always"] ∅ } 1 [[guarded "always"]]
      afterSource := .next rfl .here
  have evaluates : EvaluatesCondition ∅ afterSource.nodeOutputs (guarded "always") "always" :=
    ⟨rfl, fun carried => by simpa using carried.2, by decide⟩
  rcases whenCondition_recorded_iff (answering fun _ => false) "w" [source, guarded "always"]
    (by decide) ∅ built reached List.mem_cons_self rfl evaluates with ⟨result, run, holds⟩
  refine ⟨result, run, (holds.mpr ?_).2 ConditionEvaluator.unparsed (by decide) rfl⟩
  rw [← ConditionEvaluator.evaluateCondition_error_iff]
  rintro ⟨error, failed⟩
  cases failed

/-- The condition names a field of an output that is not JSON: its evaluation
fails, the node is skipped, and the run is marked completed. -/
theorem whenCondition_error_skipped :
    Reaches (answering fun _ => false) ∅ 0
      [[source], [guarded "$a.output.field == 'x'"]]
      { nodeOutputs := prepopulate [source, guarded "$a.output.field == 'x'"] ∅ }
      1 [[guarded "$a.output.field == 'x'"]] afterSource ∧
    EvaluatesCondition ∅ afterSource.nodeOutputs (guarded "$a.output.field == 'x'")
      "$a.output.field == 'x'" ∧
    (∃ error, ConditionEvaluator.evaluateCondition (answering fun _ => false).serde
      (visibleOutputs ∅ afterSource.nodeOutputs (guarded "$a.output.field == 'x'"))
      "$a.output.field == 'x'" = .error error) ∧
    ∃ result metadata,
      executeDagWorkflow (answering fun _ => false) "w"
        [source, guarded "$a.output.field == 'x'"] ∅ = .ok result ∧
      (result.nodeOutputs.lookup "b").map NodeOutput.state = some .skipped ∧
      result.ending = .completed metadata :=
  ⟨.next rfl .here, ⟨rfl, fun carried => by simpa using carried.2, by decide⟩,
    ⟨{ nodeId := "a", field := "field", reason := .unparseable }, by decide⟩,
    _, _, rfl, by decide, rfl⟩

end HarnessAgent
