import HarnessAgent.Executor.DagWorkflow

/-! # Order of execution

The tasks of a layer end in any order, and the nodes of a workflow can be listed in any
order. For executors that are functions of the node and of the outputs they are given,
neither is seen in the outputs of a run: they are the only solution of a system of equations
between the outputs of the nodes, layer by layer.
-/

namespace HarnessAgent

def NodeOutputs.restrict (outputs : NodeOutputs) (keep : String → Bool) : NodeOutputs where
  entries := outputs.entries.filter fun entry => keep entry.1
  nodupKeys := outputs.nodupKeys.sublist List.filter_sublist

theorem NodeOutputs.lookup_restrict (outputs : NodeOutputs) (keep : String → Bool) (id : String) :
    (outputs.restrict keep).lookup id = if keep id then outputs.lookup id else none := by
  apply Option.ext
  intro output
  have inside : output ∈ (outputs.restrict keep).lookup id ↔
      output ∈ outputs.lookup id ∧ keep id = true := by
    rw [AList.mem_lookup_iff, AList.mem_lookup_iff, restrict, List.mem_filter]
  rw [← Option.mem_def, inside]
  cases kept : keep id with
  | true => simp
  | false => simp

namespace DagWorkflow

inductive Handle
  | pending
  | panicked
  | finished (id : String) (result : NodeResult)
  deriving DecidableEq, Repr

section Handles

variable (environment : Environment) (prior : PriorNodes)

def ended (task : DagNode → NodeResult) (node : DagNode) : Handle :=
  if environment.lost node then .panicked else .finished node.id (task node)

def finishTask (task : DagNode → NodeResult) (layer : List DagNode) (handles : List Handle)
    (position : Nat) : List Handle :=
  match layer[position]? with
  | some node => handles.set position (ended environment task node)
  | none => handles

/-- The handles of a layer, in the order in which they were spawned, after tasks have ended
in some other order. -/
def joinAll (task : DagNode → NodeResult) (layer : List DagNode) (finishing : List Nat) :
    List Handle :=
  finishing.foldl (finishTask environment task layer) (layer.map fun _ => .pending)

def collectHandle (isParallel : Bool) (progress : Progress) : Handle → Progress
  | .finished id result => collect isParallel progress id result
  | .panicked => progress
  | .pending => progress

def runLayerFinishing (finishing : List Nat) (progress : Progress) (layer : List DagNode) :
    Progress :=
  let isParallel : Bool := decide (1 < layer.length)
  let resumeSession := if isParallel then none else progress.lastSequentialSessionId
  let task := runTask environment prior progress.nodeOutputs resumeSession isParallel
  (joinAll environment task layer finishing).foldl (collectHandle isParallel)
    { progress with lastSequentialSessionId := resumeSession }

end Handles

/-- An order in which the tasks of each layer end; every task ends once. -/
structure Schedule where
  finishing : Nat → List DagNode → List Nat
  complete : ∀ index layer, (finishing index layer).Perm (List.range layer.length)

section Scheduled

variable (environment : Environment) (prior : PriorNodes) (schedule : Schedule)

def layerLoopScheduled : Nat → List (List DagNode) → Progress → Progress × Option Nat
  | _, [], progress => (progress, none)
  | index, layer :: rest, progress =>
      let progress :=
        runLayerFinishing environment prior (schedule.finishing index layer) progress layer
      if stops (environment.statusAfterLayer index) then (progress, some index)
      else layerLoopScheduled (index + 1) rest progress

end Scheduled

end DagWorkflow

open DagWorkflow

/-- A run in which the tasks of each layer end in a given order. -/
def executeScheduled (environment : Environment) (workflowName : String)
    (nodes : List DagNode) (prior : PriorNodes) (schedule : Schedule) :
    Except LayerPanic WorkflowResult := do
  let layers ← buildTopologicalLayers nodes
  let loop := layerLoopScheduled environment prior schedule 0 layers
    { nodeOutputs := prepopulate nodes prior }
  return concludeWorkflow environment workflowName nodes layers.length loop

namespace DagWorkflow

section Order

variable (environment : Environment) (prior : PriorNodes) (task : DagNode → NodeResult)

theorem getElem?_finishTask (layer : List DagNode)
    (handles : List Handle) (spawned : handles.length = layer.length) (position other : Nat) :
    (finishTask environment task layer handles position)[other]? =
      if other = position then layer[other]?.map (ended environment task)
      else handles[other]? := by
  unfold finishTask
  cases found : layer[position]? with
  | none =>
      have outside : layer.length ≤ position := List.getElem?_eq_none_iff.mp found
      by_cases same : other = position
      · subst same
        have absent : handles[other]? = none := List.getElem?_eq_none (by omega)
        rw [if_pos rfl, found]
        exact absent
      · rw [if_neg same]
  | some node =>
      have inside : position < layer.length := (List.getElem?_eq_some_iff.mp found).1
      by_cases same : other = position
      · subst same
        rw [if_pos rfl, found]
        simp only [Option.map_some]
        rw [List.getElem?_set_self (by omega)]
      · rw [if_neg same, List.getElem?_set_ne (by omega)]

theorem length_finishTask (layer : List DagNode)
    (handles : List Handle) (position : Nat) :
    (finishTask environment task layer handles position).length = handles.length := by
  unfold finishTask
  split
  · exact List.length_set
  · rfl

/-- After some tasks have ended, their handles hold the results and the others are as they
were. -/
theorem getElem?_joinAll (layer : List DagNode)
    (finishing : List Nat) (handles : List Handle) (spawned : handles.length = layer.length)
    (position : Nat) :
    (finishing.foldl (finishTask environment task layer) handles)[position]? =
      if position ∈ finishing then layer[position]?.map (ended environment task)
      else handles[position]? := by
  induction finishing generalizing handles with
  | nil => simp
  | cons first rest induction =>
      have spawnedAfter : (finishTask environment task layer handles first).length =
          layer.length := by
        rw [length_finishTask, spawned]
      rw [List.foldl_cons, induction _ spawnedAfter,
        getElem?_finishTask environment task layer handles spawned]
      by_cases later : position ∈ rest
      · simp [later]
      · by_cases same : position = first
        · simp [same]
        · simp [later, same]

/-- However the tasks are ordered, the handles hold the results in the order of the
layer. -/
theorem joinAll_eq (layer : List DagNode) (complete : finishing.Perm (List.range layer.length)) :
    joinAll environment task layer finishing = layer.map (ended environment task) := by
  apply List.ext_getElem?
  intro position
  rw [joinAll, getElem?_joinAll environment task layer finishing _ (List.length_map _),
    List.getElem?_map, List.getElem?_map]
  by_cases inside : position ∈ finishing
  · rw [if_pos inside]
  · have outside : layer.length ≤ position := by
      rw [complete.mem_iff, List.mem_range] at inside
      omega
    rw [if_neg inside, List.getElem?_eq_none outside]
    rfl

theorem runLayerFinishing_eq (complete : finishing.Perm (List.range layer.length))
    (progress : Progress) :
    runLayerFinishing environment prior finishing progress layer =
      runLayer environment prior progress layer := by
  unfold runLayerFinishing runLayer
  simp only [joinAll_eq environment _ layer complete, List.foldl_map]
  congr 1
  funext collected node
  unfold ended
  split
  · rfl
  · rfl

theorem layerLoopScheduled_eq (schedule : Schedule) (index : Nat)
    (layers : List (List DagNode)) (progress : Progress) :
    layerLoopScheduled environment prior schedule index layers progress =
      layerLoop environment prior index layers progress := by
  induction layers generalizing index progress with
  | nil => rfl
  | cons layer rest induction =>
      rw [layerLoopScheduled, layerLoop,
        runLayerFinishing_eq environment prior (schedule.complete index layer), induction]

end Order

end DagWorkflow

/-- A run does not depend on the order in which the tasks of a layer end. -/
theorem executeScheduled_eq (environment : Environment) (workflowName : String)
    (nodes : List DagNode) (prior : PriorNodes) (schedule : Schedule) :
    executeScheduled environment workflowName nodes prior schedule =
      executeDagWorkflow environment workflowName nodes prior := by
  unfold executeScheduled executeDagWorkflow
  simp only [layerLoopScheduled_eq]


namespace DagWorkflow

abbrev Behaviour := DagNode → (String → Option NodeOutput) → NodeResult

/-- Executors whose result depends on the node and on the outputs alone, in a run that
stays running. -/
def functional (serde : SerdeJson) (behaviour : Behaviour) : Environment where
  serde := serde
  dispatch := fun node context => behaviour node fun id => context.allOutputs.lookup id
  lost := fun _ => false
  statusAfterLayer := fun _ => .ok (some .running)
  statusAtEnd := .ok (some .running)

section Expectation

variable (serde : SerdeJson) (behaviour : Behaviour) (nodes : List DagNode)
  (unique : (nodes.map DagNode.id).Nodup)

def Earlier (id : String) (node : DagNode) : Prop :=
  ∃ source ∈ nodes, source.id = id ∧
    (workflowGraph nodes unique).level source < (workflowGraph nodes unique).level node

open Classical in
noncomputable def earlierOutputs (outputs : NodeOutputs) (node : DagNode) : NodeOutputs :=
  outputs.restrict fun id => decide (Earlier nodes unique id node)

/-- Whether a node has no condition or one that is true; one that cannot be parsed or
evaluated counts as false. -/
def conditionHolds (outputs : NodeOutputs) (node : DagNode) : Bool :=
  match node.base.when with
  | none => true
  | some expr =>
      match ConditionEvaluator.evaluateCondition serde outputs expr with
      | .error _ => false
      | .ok condition => condition.parsed && condition.result

def outputUnder (states visible : NodeOutputs) (node : DagNode) : NodeOutput :=
  if checkTriggerRule node states = .skip then .skipped ""
  else if conditionHolds serde visible node then
    (behaviour node fun id => visible.lookup id).output
  else .skipped ""

/-- The entries of the nodes, and there are no others, are what the nodes make of the final
states of their dependencies and of the outputs of all strictly earlier layers. -/
structure Expected (outputs : NodeOutputs) : Prop where
  nodesOnly : ∀ id ∈ outputs, id ∈ nodes.map DagNode.id
  entry : ∀ node ∈ nodes,
    outputs.lookup node.id =
      some (outputUnder serde behaviour outputs (earlierOutputs nodes unique outputs node) node)

end Expectation

section Levels

variable {serde : SerdeJson} {behaviour : Behaviour} {nodes listed : List DagNode}
  {unique : (nodes.map DagNode.id).Nodup} {left right : NodeOutputs}

theorem conditionHolds_congr (same : ∀ id, left.lookup id = right.lookup id) (node : DagNode) :
    conditionHolds serde left node = conditionHolds serde right node := by
  unfold conditionHolds
  simp only [ConditionEvaluator.evaluateCondition_congr same]

theorem outputUnder_congr
    (sameStates : ∀ id ∈ node.dependsOn, leftStates.lookup id = rightStates.lookup id)
    (same : ∀ id, left.lookup id = right.lookup id) :
    outputUnder serde behaviour leftStates left node =
      outputUnder serde behaviour rightStates right node := by
  unfold outputUnder
  rw [checkTriggerRule_congr sameStates, conditionHolds_congr same, funext same]

theorem lookup_earlierOutputs (outputs : NodeOutputs) (node : DagNode) {id : String} :
    (Earlier nodes unique id node →
      (earlierOutputs nodes unique outputs node).lookup id = outputs.lookup id) ∧
    (¬Earlier nodes unique id node →
      (earlierOutputs nodes unique outputs node).lookup id = none) := by
  unfold earlierOutputs
  rw [NodeOutputs.lookup_restrict]
  constructor
  · intro earlier
    rw [if_pos (by simpa using earlier)]
  · intro notEarlier
    rw [if_neg (by simpa using notEarlier)]

theorem earlier_iff (perm : listed.Perm nodes) {layers : List (List DagNode)}
    (built : buildTopologicalLayers listed = .ok layers) {index : Nat} {layer : List DagNode}
    (found : layers[index]? = some layer) {node : DagNode} (member : node ∈ layer) (id : String) :
    Earlier nodes unique id node ↔ id ∈ (layers.take index).flatten.map DagNode.id := by
  have listedUnique : (listed.map DagNode.id).Nodup :=
    (perm.map DagNode.id).nodup_iff.mpr unique
  rcases TopologicalLayers.greedy_of_build listedUnique built with ⟨greedy, complete⟩
  have levels : ∀ other, (workflowGraph nodes unique).level other =
      (workflowGraph listed listedUnique).level other := fun other =>
    (@DependencyGraph.level_eq_of_perm _ _ (workflowGraph listed listedUnique)
      (workflowGraph nodes unique) rfl rfl perm other).symm
  have placed := @DependencyGraph.mem_placedBefore _ _ (workflowGraph listed listedUnique) layers
    index id
  change id ∈ (layers.take index).flatten.map DagNode.id ↔ _ at placed
  rw [placed, Earlier]
  simp only [levels, greedy.level_eq found member]
  constructor
  · rintro ⟨source, sourceMember, rfl, lower⟩
    rcases List.mem_flatten.mp (complete.mem_iff.mpr (perm.mem_iff.mpr sourceMember)) with
      ⟨sourceLayer, layerMember, inside⟩
    rcases List.mem_iff_getElem?.mp layerMember with ⟨sourceIndex, sourceFound⟩
    rw [greedy.level_eq sourceFound inside] at lower
    exact ⟨sourceIndex, lower, sourceLayer, sourceFound, source, inside, rfl⟩
  · rintro ⟨sourceIndex, lower, sourceLayer, sourceFound, source, inside, rfl⟩
    refine ⟨source, perm.mem_iff.mp (greedy.mem_nodes sourceFound inside), rfl, ?_⟩
    rw [greedy.level_eq sourceFound inside]
    exact lower

theorem earlier_of_dependency (perm : listed.Perm nodes) {layers : List (List DagNode)}
    (built : buildTopologicalLayers listed = .ok layers) {index : Nat} {layer : List DagNode}
    (found : layers[index]? = some layer) {node : DagNode} (member : node ∈ layer)
    {id : String} (dependency : id ∈ node.dependsOn) : Earlier nodes unique id node := by
  have listedUnique : (listed.map DagNode.id).Nodup :=
    (perm.map DagNode.id).nodup_iff.mpr unique
  rcases TopologicalLayers.greedy_of_build listedUnique built with ⟨greedy, _⟩
  rw [earlier_iff perm built found member]
  exact DependencyGraph.mem_placedBefore.mpr (greedy.dependency_earlier found member dependency)

theorem Expected.lookup_eq {layers : List (List DagNode)}
    (built : buildTopologicalLayers nodes = .ok layers)
    (leftExpected : Expected serde behaviour nodes unique left)
    (rightExpected : Expected serde behaviour nodes unique right) (id : String) :
    left.lookup id = right.lookup id := by
  have ofNodes : ∀ (index : Nat) (layer : List DagNode), layers[index]? = some layer →
      ∀ node ∈ layer, left.lookup node.id = right.lookup node.id := by
    intro index
    -- a layer is determined by the layers before it
    induction index using Nat.strong_induction_on with
    | _ index induction =>
        intro layer found node member
        have earlierSame : ∀ id, Earlier nodes unique id node →
            left.lookup id = right.lookup id := by
          intro id earlier
          rw [earlier_iff (List.Perm.refl nodes) built found member] at earlier
          rcases (@DependencyGraph.mem_placedBefore _ _ (workflowGraph nodes unique) _ _ _).mp
            earlier with ⟨before, lower, other, foundOther, source, inside, rfl⟩
          exact induction before lower other foundOther source inside
        have inNodes : node ∈ nodes :=
          (TopologicalLayers.greedy_of_build unique built).1.mem_nodes found member
        rw [leftExpected.entry node inNodes, rightExpected.entry node inNodes]
        congr 1
        apply outputUnder_congr
        · intro id dependency
          exact earlierSame id
            (earlier_of_dependency (List.Perm.refl nodes) built found member dependency)
        · intro id
          by_cases earlier : Earlier nodes unique id node
          · rw [(lookup_earlierOutputs left node).1 earlier,
              (lookup_earlierOutputs right node).1 earlier]
            exact earlierSame id earlier
          · rw [(lookup_earlierOutputs left node).2 earlier,
              (lookup_earlierOutputs right node).2 earlier]
  by_cases known : id ∈ nodes.map DagNode.id
  · rcases List.mem_map.mp known with ⟨node, member, rfl⟩
    have complete := (TopologicalLayers.greedy_of_build unique built).2
    rcases List.mem_flatten.mp (complete.mem_iff.mpr member) with ⟨layer, layerMember, inside⟩
    rcases List.mem_iff_getElem?.mp layerMember with ⟨index, found⟩
    exact ofNodes index layer found node inside
  · rw [AList.lookup_eq_none.mpr fun present => known (leftExpected.nodesOnly id present),
      AList.lookup_eq_none.mpr fun present => known (rightExpected.nodesOnly id present)]

end Levels

section Runs

variable {environment : Environment} {prior : PriorNodes}

theorem reaches_take (continues : ∀ index, stops (environment.statusAfterLayer index) = false)
    {layers : List (List DagNode)} {count : Nat} (bound : count ≤ layers.length) (index : Nat)
    (progress : Progress) :
    Reaches environment prior index layers progress (index + count) (layers.drop count)
      ((layers.take count).foldl (runLayer environment prior) progress) := by
  induction layers generalizing count index progress with
  | nil =>
      have none : count = 0 := by simpa using bound
      subst none
      exact .here
  | cons layer rest induction =>
      cases count with
      | zero => exact .here
      | succ count =>
          have fewer : count ≤ rest.length := by simpa using bound
          have later := induction fewer (index + 1) (runLayer environment prior progress layer)
          have target : index + 1 + count = index + (count + 1) := by omega
          rw [target] at later
          exact .next (continues index) later

theorem lookup_foldl_of_absent {layers : List (List DagNode)} {id : String}
    (absent : id ∉ layers.flatten.map DagNode.id) (progress : Progress) :
    (layers.foldl (runLayer environment prior) progress).nodeOutputs.lookup id =
      progress.nodeOutputs.lookup id := by
  induction layers generalizing progress with
  | nil => rfl
  | cons layer rest induction =>
      rw [List.flatten_cons, List.map_append, List.mem_append, not_or] at absent
      rw [List.foldl_cons, induction absent.2]
      apply lookup_runLayer_of_absent
      intro node member _ same
      exact absent.1 (List.mem_map.mpr ⟨node, member, same⟩)

theorem lookup_snapshot (continues : ∀ index, stops (environment.statusAfterLayer index) = false)
    {layers : List (List DagNode)} (unique : (layers.flatten.map DagNode.id).Nodup)
    {index : Nat} (bound : index ≤ layers.length) {start : Progress}
    (empty : start.nodeOutputs = ∅) {id : String} :
    let snapshot := ((layers.take index).foldl (runLayer environment prior) start).nodeOutputs
    (id ∈ (layers.take index).flatten.map DagNode.id →
      snapshot.lookup id = (layerLoop environment prior 0 layers start).1.nodeOutputs.lookup id) ∧
    (id ∉ (layers.take index).flatten.map DagNode.id → snapshot.lookup id = none) := by
  intro snapshot
  constructor
  · intro placed
    have reached := @reaches_take environment prior continues layers index bound 0 start
    have split : ((layers.take index).flatten ++ (layers.drop index).flatten).map DagNode.id =
        layers.flatten.map DagNode.id := by
      rw [← List.flatten_append, List.take_append_drop]
    rw [← split, List.map_append, List.nodup_append] at unique
    rw [layerLoop_of_reaches reached, lookup_layerLoop_of_absent]
    intro node member _ same
    exact unique.2.2 id placed node.id (List.mem_map_of_mem member) same.symm
  · intro unplaced
    rw [lookup_foldl_of_absent unplaced, empty]
    rfl

end Runs

section Functional

variable {serde : SerdeJson} {behaviour : Behaviour}

theorem runTask_functional (snapshot : NodeOutputs) (session : Option String)
    (isParallel : Bool) (node : DagNode) :
    (runTask (functional serde behaviour) ∅ snapshot session isParallel node).output =
      outputUnder serde behaviour snapshot snapshot node := by
  have visible : visibleOutputs ∅ snapshot node = snapshot := rfl
  unfold runTask outputUnder conditionHolds
  simp only [AList.lookup_empty, visible]
  cases trigger : checkTriggerRule node snapshot with
  | skip => rfl
  | run =>
      cases condition : node.base.when with
      | none => rfl
      | some expr =>
          obtain ⟨evaluation, evaluated⟩ :
              ∃ evaluation, ConditionEvaluator.evaluateCondition serde snapshot expr =
                evaluation := ⟨_, rfl⟩
          simp only [functional, evaluated]
          cases evaluation with
          | error error => rfl
          | ok result =>
              rcases result with ⟨holds, parsed⟩
              cases holds <;> cases parsed <;> rfl

theorem expected_of_run {workflowName : String} {nodes listed : List DagNode}
    (unique : (nodes.map DagNode.id).Nodup) (perm : listed.Perm nodes) {result : WorkflowResult}
    (executed : executeDagWorkflow (functional serde behaviour) workflowName listed ∅ =
      .ok result) : Expected serde behaviour nodes unique result.nodeOutputs := by
  rcases executeDagWorkflow_eq_ok executed with ⟨layers, built, rfl⟩
  rw [concludeWorkflow_nodeOutputs]
  have listedUnique : (listed.map DagNode.id).Nodup :=
    (perm.map DagNode.id).nodup_iff.mpr unique
  have complete := (TopologicalLayers.greedy_of_build listedUnique built).2
  have layersUnique : (layers.flatten.map DagNode.id).Nodup :=
    (complete.map DagNode.id).nodup_iff.mpr listedUnique
  have continues : ∀ index, stops ((functional serde behaviour).statusAfterLayer index) = false :=
    fun _ => rfl
  constructor
  · intro id present
    by_contra unknown
    have absent : ∀ node ∈ layers.flatten, (functional serde behaviour).lost node = false →
        node.id ≠ id := by
      intro node member _ same
      apply unknown
      exact List.mem_map.mpr ⟨node, perm.mem_iff.mp (complete.mem_iff.mp member), same⟩
    rw [← AList.lookup_isSome, lookup_layerLoop_of_absent absent] at present
    cases present
  · intro node member
    rcases List.mem_flatten.mp (complete.mem_iff.mpr (perm.mem_iff.mpr member)) with
      ⟨layer, layerMember, inside⟩
    rcases List.mem_iff_getElem?.mp layerMember with ⟨index, found⟩
    have bound : index < layers.length := (List.getElem?_eq_some_iff.mp found).1
    have remaining : layers.drop index = layer :: layers.drop (index + 1) := by
      rw [List.drop_eq_getElem_cons bound, (List.getElem?_eq_some_iff.mp found).2]
    have reached := @reaches_take (functional serde behaviour) ∅ continues layers index
      (Nat.le_of_lt bound) 0 { nodeOutputs := prepopulate listed ∅ }
    have remainingUnique :
        ((layer :: layers.drop (index + 1)).flatten.map DagNode.id).Nodup := by
      rw [← remaining]
      exact layersUnique.sublist ((List.drop_sublist _ _).flatten.map DagNode.id)
    rw [remaining] at reached
    have snapshot := fun id => @lookup_snapshot (functional serde behaviour) ∅ continues layers
      layersUnique index (Nat.le_of_lt bound) { nodeOutputs := prepopulate listed ∅ } rfl id
    have earlier := @earlier_iff nodes listed unique perm layers built index layer found node
      inside
    have recorded := layerLoop_of_reaches reached ▸
      lookup_layerLoop_of_mem remainingUnique inside rfl _ _
    rw [recorded, layerTask, runTask_functional]
    congr 1
    apply outputUnder_congr
    · intro id dependency
      exact (snapshot id).1 ((earlier id).mp
        (earlier_of_dependency perm built found inside dependency))
    · intro id
      by_cases before : Earlier nodes unique id node
      · rw [(lookup_earlierOutputs _ node).1 before]
        exact (snapshot id).1 ((earlier id).mp before)
      · rw [(lookup_earlierOutputs _ node).2 before]
        exact (snapshot id).2 fun placed => before ((earlier id).mpr placed)

end Functional

end DagWorkflow

/-- A workflow without cycles has exactly one expected map of outputs, and every run of it
returns this map, in whatever order its nodes are listed and the tasks of a layer end. With
a dependency that is not a node, no run returns. -/
theorem executeScheduled_expected (serde : SerdeJson) (behaviour : Behaviour)
    (workflowName : String) (nodes : List DagNode) (unique : (nodes.map DagNode.id).Nodup)
    (acyclic : (workflowGraph nodes unique).Acyclic) :
    ((workflowGraph nodes unique).Closed →
      ∃ outputs, Expected serde behaviour nodes unique outputs ∧
        (∀ other, Expected serde behaviour nodes unique other →
          ∀ id, other.lookup id = outputs.lookup id) ∧
        ∀ listed, listed.Perm nodes → ∀ schedule, ∃ result,
          executeScheduled (functional serde behaviour) workflowName listed ∅ schedule =
            .ok result ∧
          ∀ id, result.nodeOutputs.lookup id = outputs.lookup id) ∧
    (¬(workflowGraph nodes unique).Closed →
      ∀ listed, listed.Perm nodes → ∀ schedule result,
        executeScheduled (functional serde behaviour) workflowName listed ∅ schedule ≠
          .ok result) := by
  simp only [executeScheduled_eq]
  constructor
  · intro closed
    rcases (TopologicalLayers.build_ok_iff unique).mpr ⟨closed, acyclic⟩ with ⟨layers, built⟩
    have here := executeDagWorkflow_of_layers (functional serde behaviour) workflowName ∅ built
    have expected := expected_of_run unique (List.Perm.refl nodes) here
    refine ⟨_, expected, fun other otherExpected => otherExpected.lookup_eq built expected, ?_⟩
    intro listed perm schedule
    have listedUnique : (listed.map DagNode.id).Nodup :=
      (perm.map DagNode.id).nodup_iff.mpr unique
    have listedClosed : (workflowGraph listed listedUnique).Closed :=
      closed.of_perm rfl rfl perm.symm
    have listedAcyclic : (workflowGraph listed listedUnique).Acyclic :=
      acyclic.of_perm rfl rfl perm.symm
    rcases (TopologicalLayers.build_ok_iff listedUnique).mpr ⟨listedClosed, listedAcyclic⟩ with
      ⟨listedLayers, listedBuilt⟩
    have executed :=
      executeDagWorkflow_of_layers (functional serde behaviour) workflowName ∅ listedBuilt
    exact ⟨_, executed, (expected_of_run unique perm executed).lookup_eq built expected⟩
  · intro notClosed listed perm schedule result executed
    have listedUnique : (listed.map DagNode.id).Nodup :=
      (perm.map DagNode.id).nodup_iff.mpr unique
    rcases executeDagWorkflow_eq_ok executed with ⟨layers, built, _⟩
    have wellFormed := (TopologicalLayers.build_ok_iff listedUnique).mp ⟨layers, built⟩
    apply notClosed
    exact wellFormed.1.of_perm rfl rfl perm

namespace DagWorkflow

def lastFirst : Schedule where
  finishing := fun _ layer => (List.range layer.length).reverse
  complete := fun _ _ => List.reverse_perm _

def review : List DagNode :=
  [.prompt { base := { id := "build" }, prompt := "p" },
    .prompt { base := { id := "review", dependsOn := ["build"] }, prompt := "p" },
    .prompt { base := { id := "ship", dependsOn := ["build", "review"] }, prompt := "p" },
    .prompt
      { base := { id := "report", dependsOn := ["review"], triggerRule := some .allDone,
                  when := some "$build.output == 'built'" },
        prompt := "p" }]

def reviewing : Behaviour := fun node outputs =>
  if node.id = "review" then { output := .failed "" none "rejected" none none }
  else if (outputs "build").isSome then { output := .completed "seen" none none none }
  else { output := .completed "built" none none none }

end DagWorkflow

theorem executeScheduled_expected_review :
    ∃ unique outputs,
      Expected { toString := fun _ => "", fromStr := fun _ => none } reviewing review unique
        outputs ∧
      outputs.lookup "ship" = some (.skipped "") ∧
      outputs.lookup "report" = some (.completed "seen" none none none) ∧
      ∃ result,
        executeScheduled
          (functional { toString := fun _ => "", fromStr := fun _ => none } reviewing) "w"
          review.reverse ∅ lastFirst = .ok result ∧
        ∀ id, result.nodeOutputs.lookup id = outputs.lookup id := by
  have unique : (review.map DagNode.id).Nodup := by decide
  have wellFormed := (TopologicalLayers.build_ok_iff unique).mp
    ⟨[_, _, _], (rfl : buildTopologicalLayers review = .ok _)⟩
  rcases (executeScheduled_expected { toString := fun _ => "", fromStr := fun _ => none } reviewing
    "w" review unique wellFormed.2).1 wellFormed.1 with ⟨outputs, expected, _, runs⟩
  rcases runs review.reverse (List.reverse_perm _) lastFirst with ⟨result, executed, same⟩
  have known : executeScheduled
    (functional { toString := fun _ => "", fromStr := fun _ => none } reviewing) "w"
    review.reverse ∅ lastFirst = .ok _ := rfl
  rw [known] at executed
  cases executed
  refine ⟨unique, outputs, expected, ?_, ?_, _, known, same⟩
  · rw [← same]
    rfl
  · rw [← same]
    rfl

end HarnessAgent
