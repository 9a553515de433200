import HarnessAgent.Executor.ApprovalGate
import HarnessAgent.Executor.ProviderResolution

/-! # Sessions between nodes

A node that runs alone in its layer goes on with the session that the last such node
returned, until a layer of several nodes ends the chain. The session is a bare identifier;
the provider that it belongs to is not kept.
-/

namespace HarnessAgent

open DagWorkflow

def DagNode.returnsSession : DagNode → Bool
  | .command _ => true
  | .prompt _ => true
  | .loop _ => true
  | _ => false

def NodeOutput.session : NodeOutput → Option String
  | .completed _ session _ _ => session
  | _ => none

namespace NodeEnvironment

variable (environment : NodeEnvironment)

theorem session_subprocessOutput (label executable : String) (call : SubprocessCall)
    (outcome : SubprocessOutcome) :
    (subprocessOutput label executable call outcome).session = none := by
  unfold subprocessOutput
  split <;> rfl

theorem session_executeBashNode (node : BashNode) (nodeOutputs : NodeOutputs) :
    (environment.executeBashNode node nodeOutputs).result.output.session = none := by
  unfold executeBashNode
  split
  · rfl
  · exact session_subprocessOutput _ _ _ _

theorem session_executeScriptNode (node : ScriptNode) (nodeOutputs : NodeOutputs) :
    (environment.executeScriptNode node nodeOutputs).result.output.session = none := by
  unfold executeScriptNode
  split
  · rfl
  · simp only
    split
    · rfl
    · exact session_subprocessOutput _ _ _ _

theorem session_approvalGate (node : ApprovalNode) (nodeOutputs : NodeOutputs)
    (uses : List Use) :
    (environment.approvalGate node nodeOutputs uses).result.output.session = none := by
  unfold approvalGate
  simp only
  split <;> rfl

theorem session_of_failed {output : NodeOutput} (failed : output.state = .failed) :
    output.session = none := by
  cases output with
  | failed => rfl
  | completed => cases failed
  | running => cases failed
  | pending => cases failed
  | skipped => cases failed

theorem session_executeReject (node : ApprovalNode) (onReject : ApprovalOnReject)
    (reason : String) (nodeOutputs : NodeOutputs) :
    (environment.executeReject node onReject reason nodeOutputs).result.output.session = none := by
  unfold executeReject
  simp only
  split
  · rfl
  · split
    · rfl
    · split_ifs with failed
      · exact session_of_failed failed
      · exact session_approvalGate environment _ _ _

theorem session_executeApprovalNode (node : ApprovalNode) (nodeOutputs : NodeOutputs) :
    (environment.executeApprovalNode node nodeOutputs).result.output.session = none := by
  unfold executeApprovalNode
  split
  · split
    · rfl
    · exact session_executeReject environment _ _ _ _
  · exact session_approvalGate environment _ _ _

variable {session : String}

theorem executeLoopNode_resolved {node : LoopNode} (returned :
      (environment.executeLoopNode node nodeOutputs).result.output.session = some session) :
    ∃ provider, environment.resolveProvider (.loop node) = .ok provider := by
  cases resolved : environment.resolveProvider (.loop node) with
  | error error =>
      rw [executeLoopNode, resolved] at returned
      cases returned
  | ok provider => exact ⟨provider, rfl⟩

variable {node : DagNode}

theorem executeAiNode_resolved
    (returned : (environment.executeAiNode node context).result.output.session = some session) :
    ∃ provider, environment.resolveProvider node = .ok provider := by
  cases resolved : environment.resolveProvider node with
  | error error =>
      rw [executeAiNode, resolved] at returned
      cases returned
  | ok provider => exact ⟨provider, rfl⟩

theorem executeNode_session
    (returned : (executeNode environment node context).result.output.session = some session) :
    node.returnsSession = true ∧
      ∃ provider, environment.resolveProvider node = .ok provider := by
  cases node with
  | command node => exact ⟨rfl, environment.executeAiNode_resolved returned⟩
  | prompt node => exact ⟨rfl, environment.executeAiNode_resolved returned⟩
  | loop node => exact ⟨rfl, environment.executeLoopNode_resolved returned⟩
  | bash node =>
      rw [executeNode, session_executeBashNode] at returned
      cases returned
  | script node =>
      rw [executeNode, session_executeScriptNode] at returned
      cases returned
  | approval node =>
      rw [executeNode, session_executeApprovalNode] at returned
      cases returned
  | cancel node => cases returned

def sequentialSession (node : DagNode) (context : TaskContext) : Option String :=
  if context.isParallel || node.base.context = some .fresh then none else context.resumeSession

def storedSession (node : DagNode) (provider : String) : Option String :=
  if environment.persistsSession node then
    if environment.run.conversationId = "" then none
    else environment.persistedSession node.id provider
  else none

/-- A node makes its attempts on the session that is kept for it, or else on that of an
earlier node. -/
theorem executeAiNode_eq (context : TaskContext)
    (resolved : environment.resolveProvider node = .ok provider)
    (supported : environment.persistsSession node = true →
      environment.sessionResume provider = true) :
    environment.executeAiNode node context =
      retryLoop (getEffectiveNodeRetryConfig node)
        (environment.executeNodeInternal node provider context.allOutputs
          ((environment.storedSession node provider).or (sequentialSession node context))) 0
        (getEffectiveNodeRetryConfig node).maxRetries := by
  unfold storedSession sequentialSession
  rw [executeAiNode, resolved]
  simp only
  by_cases persists : environment.persistsSession node = true
  · rw [if_pos persists, if_pos persists, if_pos (supported persists)]
  · rw [if_neg persists, if_neg persists]
    rfl

structure Threads (node : DagNode) (context : TaskContext) (provider session : String) :
    Prop where
  isAi : node.isAi = true
  resolved : environment.resolveProvider node = .ok provider
  supported : environment.persistsSession node = true → environment.sessionResume provider = true
  notStored : environment.storedSession node provider = none
  sequential : sequentialSession node context = some session

end NodeEnvironment

namespace DagWorkflow

variable {environment : Environment} {prior : PriorNodes}

theorem Reaches.after
    (reaches : Reaches environment prior index layers progress target remaining reached)
    (here : remaining = layer :: later)
    (continues : stops (environment.statusAfterLayer target) = false) :
    Reaches environment prior index layers progress (target + 1) later
      (runLayer environment prior reached layer) := by
  induction reaches with
  | here =>
      subst here
      exact .next continues .here
  | next earlier _ induction => exact .next earlier (induction here continues)

/-- What holds at the start, and after every layer that is reached if it held before, holds
wherever a run gets. -/
theorem Reaches.forward {holds : Nat → Progress → Prop} {layers remaining : List (List DagNode)}
    {start reached : Progress} {target : Nat}
    (reaches : Reaches environment prior 0 layers start target remaining reached)
    (initial : holds 0 start)
    (step : ∀ index layer later progress,
      Reaches environment prior 0 layers start index (layer :: later) progress →
      holds index progress → holds (index + 1) (runLayer environment prior progress layer)) :
    holds target reached := by
  have general : ∀ {index rest progress},
      Reaches environment prior index rest progress target remaining reached →
      Reaches environment prior 0 layers start index rest progress →
      holds index progress → holds target reached := by
    intro index rest progress remains
    induction remains with
    | here =>
        intro _ known
        exact known
    | next continues _ induction =>
        intro history known
        exact induction reaches (history.after rfl continues) (step _ _ _ _ history known)
  exact general reaches .here initial

theorem dispatched_of_session
    (returned : (runTask environment prior snapshot resume isParallel node).output.session =
      some session) : Dispatched environment prior snapshot node := by
  rcases runTask_cases environment prior snapshot resume isParallel node with
    dispatched | skipped | ⟨text, carried⟩
  · exact dispatched
  · rw [skipped] at returned
    cases returned
  · rw [carried] at returned
    cases returned

theorem lastSequentialSessionId_parallel (parallel : 1 < layer.length) (progress : Progress) :
    (runLayer environment prior progress layer).lastSequentialSessionId = none := by
  unfold runLayer
  apply List.foldlRecOn (motive := fun collected : Progress =>
    collected.lastSequentialSessionId = none)
  · simp [parallel]
  · intro collected kept node member
    split
    · exact kept
    · simpa [collect, parallel] using kept

theorem lastSequentialSessionId_single (node : DagNode) (progress : Progress) :
    (runLayer environment prior progress [node]).lastSequentialSessionId =
      if environment.lost node then progress.lastSequentialSessionId
      else (layerTask environment prior progress [node] node).output.session.or
        progress.lastSequentialSessionId := by
  unfold runLayer layerTask
  cases lost : environment.lost node with
  | true => simp [lost]
  | false =>
      simp only [List.foldl_cons, List.foldl_nil, lost, collect, List.length_singleton,
        Nat.lt_irrefl, decide_false, Bool.false_eq_true, if_false]
      generalize (runTask environment prior progress.nodeOutputs progress.lastSequentialSessionId
        false node).output = output
      cases output with
      | completed text session structured fields => cases session <;> rfl
      | running => rfl
      | failed => rfl
      | pending => rfl
      | skipped => rfl

end DagWorkflow

structure SessionChain (layers : List (List DagNode)) (first last : Nat)
    (source target : DagNode) : Prop where
  order : first < last
  start : layers[first]? = some [source]
  finish : layers[last]? = some [target]
  between : ∀ index layer, first < index → index < last → layers[index]? = some layer →
    layer.length ≤ 1

namespace Invocation

variable (invocation : Invocation) (nodes : List DagNode)

/-- A node gets to its executor after the layers before an index, with what its task hands
to it. -/
def DispatchesWith (node : DagNode) (index : Nat) (context : TaskContext) : Prop :=
  ∃ layers layer later progress, buildTopologicalLayers nodes = .ok layers ∧
    Reaches invocation.toEnvironment invocation.prior 0 layers
      { nodeOutputs := prepopulate nodes invocation.prior } index (layer :: later) progress ∧
    node ∈ layer ∧ Dispatched invocation.toEnvironment invocation.prior progress.nodeOutputs node ∧
    context =
      { allOutputs := visibleOutputs invocation.prior progress.nodeOutputs node,
        resumeSession := if 1 < layer.length then none else progress.lastSequentialSessionId,
        isParallel := 1 < layer.length }

def Returns (node : DagNode) (index : Nat) (session : String) : Prop :=
  invocation.lost node = false ∧ ∃ context, invocation.DispatchesWith nodes node index context ∧
    (executeNode invocation.environment node context).result.output.session = some session

/-- Whatever session a node is given because it follows another one was returned by an
earlier node on the same provider. -/
def KeepsProviders : Prop :=
  ∀ node index context provider session, invocation.DispatchesWith nodes node index context →
    invocation.environment.Threads node context provider session →
    ∃ source earlier, earlier < index ∧ invocation.Returns nodes source earlier session ∧
      invocation.environment.resolveProvider source = .ok provider

/-- Along a chain of single nodes, those that can return a session and those that go on with
one have the same provider. -/
def ChainsAgree : Prop :=
  ∀ layers, buildTopologicalLayers nodes = .ok layers →
    ∀ first last source target, SessionChain layers first last source target →
      source.returnsSession = true → ¬CarriedOver invocation.prior source →
      target.isAi = true → ¬CarriedOver invocation.prior target →
      target.base.context ≠ some .fresh →
      ∀ left right, invocation.environment.resolveProvider source = .ok left →
        invocation.environment.resolveProvider target = .ok right → left = right

structure CarriedFrom (layers : List (List DagNode)) (index : Nat) (session : String)
    (source : DagNode) (first : Nat) : Prop where
  order : first < index
  start : layers[first]? = some [source]
  between : ∀ position layer, first < position → position < index →
    layers[position]? = some layer → layer.length ≤ 1
  ran : ¬CarriedOver invocation.prior source
  returned : invocation.Returns nodes source first session

variable {invocation nodes}

theorem CarriedFrom.next {layers : List (List DagNode)} {index first : Nat} {session : String}
    {source : DagNode} (carried : invocation.CarriedFrom nodes layers index session source first)
    {layer : List DagNode} (found : layers[index]? = some layer) (single : layer.length ≤ 1) :
    invocation.CarriedFrom nodes layers (index + 1) session source first := by
  refine ⟨Nat.lt_succ_of_lt carried.order, carried.start, ?_, carried.ran, carried.returned⟩
  intro position other after before otherFound
  rcases Nat.lt_succ_iff_lt_or_eq.mp before with earlier | rfl
  · exact carried.between position other after earlier otherFound
  · rw [found] at otherFound
    cases otherFound
    exact single

theorem exists_carriedFrom (built : buildTopologicalLayers nodes = .ok layers)
    (reached : Reaches invocation.toEnvironment invocation.prior 0 layers
      { nodeOutputs := prepopulate nodes invocation.prior } index remaining progress) :
    ∀ session, progress.lastSequentialSessionId = some session →
      ∃ source first, invocation.CarriedFrom nodes layers index session source first := by
  apply reached.forward
  · intro session carried
    cases carried
  · intro index layer later progress reached induction session carried
    have found := reached.getElem?
    have kept : layer.length ≤ 1 → progress.lastSequentialSessionId = some session →
        ∃ source first, invocation.CarriedFrom nodes layers (index + 1) session source first := by
      intro single before
      rcases induction session before with ⟨source, first, origin⟩
      exact ⟨source, first, origin.next found single⟩
    match layer with
    | [] => exact kept (by simp) carried
    | first :: second :: rest =>
        rw [lastSequentialSessionId_parallel (by simp)] at carried
        cases carried
    | [node] =>
        rw [lastSequentialSessionId_single] at carried
        cases lost : invocation.toEnvironment.lost node with
        | true =>
            rw [lost, if_pos rfl] at carried
            exact kept (by simp) carried
        | false =>
            rw [lost, if_neg Bool.false_ne_true] at carried
            cases returned : (layerTask invocation.toEnvironment invocation.prior progress [node]
              node).output.session with
            | none =>
                rw [returned, Option.none_or] at carried
                exact kept (by simp) carried
            | some other =>
                rw [returned, Option.some_or] at carried
                cases carried
                have dispatched := dispatched_of_session returned
                rw [layerTask, runTask_of_dispatched dispatched] at returned
                have dispatches : invocation.DispatchesWith nodes node index _ :=
                  ⟨layers, [node], later, progress, built, reached, List.mem_singleton_self _,
                    dispatched, rfl⟩
                exact ⟨node, index, Nat.lt_succ_self _, found, fun _ _ _ _ => by omega,
                  dispatched.notCarried, lost, _, dispatches, returned⟩

end Invocation

/-- In every run of a workflow whose chains of single nodes agree on their providers, a
session is given to the provider that returned it. -/
theorem threadedSession_sameProvider (invocation : Invocation) (nodes : List DagNode)
    (agree : invocation.ChainsAgree nodes) : invocation.KeepsProviders nodes := by
  rintro node index context provider session
    ⟨layers, layer, later, progress, built, reached, member, dispatched, rfl⟩ threads
  have sequential := threads.sequential
  unfold NodeEnvironment.sequentialSession at sequential
  have single : ¬1 < layer.length := by
    intro parallel
    simp [parallel] at sequential
  have shared : node.base.context ≠ some .fresh := by
    intro isFresh
    simp [isFresh] at sequential
  have kept : progress.lastSequentialSessionId = some session := by
    simpa [single, shared] using sequential
  rcases Invocation.exists_carriedFrom built reached session kept with
    ⟨source, first, carried⟩
  have alone : layer = [node] := by
    match layer with
    | [other] => rw [List.mem_singleton.mp member]
    | first :: second :: rest => exact absurd (by simp) single
  have chain : SessionChain layers first index source node :=
    ⟨carried.order, carried.start, by rw [reached.getElem?, alone], carried.between⟩
  rcases carried.returned with ⟨notLost, sourceContext, sourceDispatched, returned⟩
  rcases invocation.environment.executeNode_session returned with
    ⟨returns, sourceProvider, sourceResolved⟩
  have same := agree layers built first index source node chain returns carried.ran
    threads.isAi dispatched.notCarried shared sourceProvider provider sourceResolved
    threads.resolved
  rw [same] at sourceResolved
  exact ⟨source, first, carried.order, carried.returned, sourceResolved⟩

namespace Invocation

theorem chainsAgree_of_workflowProvider {invocation : Invocation} {nodes : List DagNode}
    {settings : ProviderSettings}
    (resolver : invocation.environment.resolveProvider = settings.resolveNodeProviderAndModel)
    (unnamed : ∀ node ∈ nodes, node.base.provider.getD settings.workflowProvider =
      settings.workflowProvider)
    (presets : ∀ profile, settings.aiProfile = some profile → ∀ name preset,
      profile.aliases.lookup name = some preset → preset.provider = settings.workflowProvider) :
    invocation.ChainsAgree nodes := by
  have common : ∀ node ∈ nodes, ∀ provider,
      invocation.environment.resolveProvider node = .ok provider →
      provider = settings.workflowProvider := by
    intro node member provider resolved
    rw [resolver] at resolved
    rcases (ProviderSettings.resolveNodeProviderAndModel_eq_ok resolved).2 with
      configured | ⟨profile, name, preset, given, found, same⟩
    · rw [configured]
      exact unnamed node member
    · rw [same]
      exact presets profile given name preset found
  intro layers built first last source target chain _ _ _ _ _ left right leftResolved rightResolved
  have inNodes : ∀ (index : Nat) (node : DagNode), layers[index]? = some [node] →
      node ∈ nodes := by
    intro index node found
    apply (TopologicalLayers.perm_of_build built).mem_iff.mp
    exact List.mem_flatten.mpr ⟨_, List.mem_of_getElem? found, List.mem_singleton_self _⟩
  rw [common source (inNodes first source chain.start) left leftResolved,
    common target (inNodes last target chain.finish) right rightResolved]

end Invocation

namespace SessionThread

def applyNode (model : Option String) : DagNode :=
  .prompt { base := { id := "apply", dependsOn := ["test"], model }, prompt := "Apply." }

def nodes (model : Option String) : List DagNode :=
  [.prompt { base := { id := "plan" }, prompt := "Plan." },
    .bash { base := { id := "test", dependsOn := ["plan"] }, bash := "true" },
    applyNode model]

def profile : ResolvedAiProfile where
  defaultProvider := "claude"
  aliases := (∅ : AList fun _ : String => ModelAliasPreset).insert "@fast"
    { provider := "codex", model := "gpt-5" }

def settings (aiProfile : Option ResolvedAiProfile) : ProviderSettings where
  workflowProvider := "claude"
  aiProfile := aiProfile
  registered := ["claude", "codex"]

/-- Every query is answered in a session that is named after the node. -/
def invocation (aiProfile : Option ResolvedAiProfile) : Invocation where
  environment :=
    { NodeEnvironment.quietEnvironment with
      resolveProvider := (settings aiProfile).resolveNodeProviderAndModel
      isRegistered := fun provider => provider ∈ (settings aiProfile).registered
      stream := fun _ node _ _ =>
        { result := { output := .completed "done" (some node.id) none none } } }
  statusAfterLayer := fun _ => .ok (some .running)
  statusAtEnd := .ok (some .running)

theorem built (model : Option String) :
    buildTopologicalLayers (nodes model) = .ok ((nodes model).map fun node => [node]) := by
  rfl

def applyContext : TaskContext where
  allOutputs :=
    ((∅ : NodeOutputs).insert "plan" (.completed "done" (some "plan") none none)).insert "test"
      (.completed "" none none none)
  resumeSession := some "plan"
  isParallel := false

theorem dispatches (aiProfile : Option ResolvedAiProfile) (model : Option String) :
    (invocation aiProfile).DispatchesWith (nodes model) (applyNode model) 2 applyContext := by
  have reached : Reaches (invocation aiProfile).toEnvironment ∅ 0
      ((nodes model).map fun node => [node]) { nodeOutputs := prepopulate (nodes model) ∅ } 2
      [[applyNode model]] _ := .next rfl (.next rfl .here)
  refine ⟨_, _, _, _, built model, reached, List.mem_singleton_self _, ⟨?_, rfl, nofun⟩, rfl⟩
  intro carried
  exact absurd carried.2 (AList.notMem_empty _)

theorem provider_of_returns {source : DagNode} (before : earlier < 2)
    (returned : (invocation aiProfile).Returns (nodes model) source earlier session) :
    (invocation aiProfile).environment.resolveProvider source = .ok "claude" := by
  rcases returned with ⟨_, _, ⟨layers, layer, later, progress, run, reached, member, _⟩, _⟩
  rw [built] at run
  cases run
  have found := reached.getElem?
  rcases Nat.lt_succ_iff_lt_or_eq.mp before with first | rfl
  · obtain rfl : earlier = 0 := by omega
    cases found
    rw [List.mem_singleton.mp member]
    rfl
  · cases found
    rw [List.mem_singleton.mp member]
    rfl

end SessionThread

open SessionThread

theorem threadedSession_sameProvider_plan :
    (invocation none).KeepsProviders (nodes none) ∧
      ∃ source earlier, earlier < 2 ∧ (invocation none).Returns (nodes none) source earlier "plan" ∧
        (invocation none).environment.resolveProvider source = .ok "claude" := by
  have agree : (invocation none).ChainsAgree (nodes none) := by
    apply @Invocation.chainsAgree_of_workflowProvider _ _ (settings none) rfl
    · decide
    · intro profile given
      cases given
  have keeps := threadedSession_sameProvider (invocation none) (nodes none) agree
  have threads : (invocation none).environment.Threads (applyNode none) applyContext "claude"
      "plan" := ⟨rfl, rfl, fun persists => absurd persists Bool.false_ne_true, rfl, rfl⟩
  exact ⟨keeps, keeps _ 2 _ _ _ (dispatches none none) threads⟩

/-- The last node names an alias of another provider, and is given a session of the
provider of the workflow. -/
theorem threadedSession_otherProvider :
    (invocation (some profile)).DispatchesWith (nodes (some "@fast")) (applyNode (some "@fast")) 2
      applyContext ∧
    (invocation (some profile)).environment.Threads (applyNode (some "@fast")) applyContext
      "codex" "plan" ∧
    (executeNode (invocation (some profile)).environment (applyNode (some "@fast"))
      applyContext).uses = [.query "Apply."] ∧
    ¬(invocation (some profile)).KeepsProviders (nodes (some "@fast")) := by
  have dispatched := dispatches (some profile) (some "@fast")
  have threads : (invocation (some profile)).environment.Threads (applyNode (some "@fast"))
      applyContext "codex" "plan" :=
    ⟨rfl, by decide +kernel, fun persists => absurd persists Bool.false_ne_true, rfl, rfl⟩
  refine ⟨dispatched, threads, by decide +kernel, ?_⟩
  intro keeps
  rcases keeps _ 2 _ _ _ dispatched threads with ⟨source, earlier, before, returned, resolved⟩
  rw [provider_of_returns before returned] at resolved
  exact absurd (Except.ok.inj resolved) (by decide)

end HarnessAgent
