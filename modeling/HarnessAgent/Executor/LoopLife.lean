import HarnessAgent.Executor.NodeExecution
import HarnessAgent.Foundation.Float64Exact
import HarnessAgent.Store.ApprovalPause

/-! # The life of a loop

An interactive loop pauses its run at a gate, and a later activation of the node
goes on from the iteration that the pause stored. The iterations of all the
activations count on from one another, unless one of them fails after it has
executed some: what the last pause stored stays, and they are executed again.
-/

namespace HarnessAgent

def Use.isQuery : Use → Bool
  | .query _ => true
  | _ => false

def Use.isPause : Use → Bool
  | .pauseRun _ => true
  | _ => false

/-- The node is reported as completed, and not because its run was paused. -/
def Execution.Concludes (execution : Execution) : Prop :=
  execution.result.output.state = .completed ∧ ∀ use ∈ execution.uses, use.isPause = false

structure LoopIteration where
  iteration : Nat
  prevOutput : String
  prompt : String
  pass : LoopPass
  deriving DecidableEq, Repr

namespace NodeEnvironment

variable (environment : NodeEnvironment)

def loopIteration (frame : LoopFrame) (iteration : Nat) (state : LoopState) :
    Option LoopIteration :=
  match environment.loopPrompt frame iteration state with
  | .error _ => none
  | .ok prompt =>
      let session :=
        if frame.node.loopConfig.freshContext || iteration = 1 then none else state.sessionId
      some { iteration, prevOutput := state.lastOutput, prompt,
             pass := environment.loopPass iteration session prompt }

/-- Whether an iteration gave the completion signal, or its shell condition
succeeded. -/
def completionDetected (frame : LoopFrame) (executed : LoopIteration) : Bool :=
  environment.detectCompletionSignal executed.pass.fullOutput
      frame.node.loopConfig.untilSignal ||
    (environment.runUntilBash frame.nodeOutputs (frame.userInput executed.iteration)
      executed.prevOutput frame.node.loopConfig.untilBash).1

def loopTrace (frame : LoopFrame) : Nat → Nat → LoopState → List LoopIteration
  | 0, _, _ => []
  | remaining + 1, iteration, state =>
      match environment.loopIteration frame iteration state with
      | none => []
      | some executed =>
          executed ::
            match environment.loopStep frame iteration state with
            | .ends _ => []
            | .continues next => loopTrace frame remaining (iteration + 1) next

def executedIterations (node : LoopNode) (nodeOutputs : NodeOutputs) : List LoopIteration :=
  match environment.resolveProvider (.loop node) with
  | .error _ => []
  | .ok provider =>
      if environment.isRegistered provider then
        let start := environment.startIteration node
        let session := (environment.approvalFor "interactive_loop" node.base.id).bind
          fun value => (value.get "sessionId").bind Value.asStr
        environment.loopTrace (environment.loopFrame node nodeOutputs)
          (node.loopConfig.maxIterations + 1 - start) start { sessionId := session }
      else []

/-! ## One iteration -/

section Iteration

variable {environment} {frame : LoopFrame} {iteration : Nat} {state : LoopState}

structure GateContext (frame : LoopFrame) (iteration : Nat) (context : ApprovalContext) :
    Prop where
  nodeId : context.nodeId = frame.node.base.id
  approvalType : context.approvalType = some .interactiveLoop
  iteration : context.iteration = some (F64.ofRat iteration)

inductive IterationEnd (environment : NodeEnvironment) (frame : LoopFrame)
    (executed : LoopIteration) (uses : List Use) : LoopStep → Prop
  | continues {next : LoopState} (kept : next.uses = uses) :
      IterationEnd environment frame executed uses (.continues next)
  | fails {execution : Execution} (kept : execution.uses = uses)
      (failed : execution.result.output.state = .failed) :
      IterationEnd environment frame executed uses (.ends execution)
  | completes {execution : Execution} (kept : execution.uses = uses)
      (detected : environment.completionDetected frame executed = true) :
      IterationEnd environment frame executed uses (.ends execution)
  | pauses {execution : Execution} {context : ApprovalContext}
      (recorded : execution.uses = uses ++ [.pauseRun context])
      (gate : GateContext frame executed.iteration context) :
      IterationEnd environment frame executed uses (.ends execution)

theorem runUntilBash_uses {nodeOutputs : NodeOutputs} {loopUserInput prevOutput : String}
    {untilBash : Option String} :
    ∀ use ∈ (environment.runUntilBash nodeOutputs loopUserInput prevOutput untilBash).2,
      use.isQuery = false ∧ use.isPause = false := by
  intro use member
  cases untilBash with
  | none => cases member
  | some script =>
    rw [runUntilBash] at member
    split at member
    · cases member
    · simp only [bashUses, List.mem_append, List.mem_map, List.mem_singleton] at member
      rcases member with ⟨file, -, rfl⟩ | rfl
      · exact ⟨rfl, rfl⟩
      · exact ⟨rfl, rfl⟩

theorem loopGate_end {message : String} {executed : LoopIteration} {uses : List Use}
    (kept : state.uses = uses) :
    IterationEnd environment frame executed uses
      (.ends (environment.loopGate frame.node message executed.iteration state)) := by
  rw [loopGate]
  split
  · split
    · exact .fails kept rfl
    · exact @IterationEnd.pauses _ _ _ _ _
        { nodeId := frame.node.base.id, message, approvalType := some .interactiveLoop,
          iteration := some (F64.ofRat executed.iteration), sessionId := state.sessionId }
        (congrArg (· ++ _) kept) ⟨rfl, rfl, rfl⟩
  · exact .fails kept rfl

/-- An iteration either stops before its query, or ends in one of four ways. -/
theorem loopStep_cases :
    (environment.loopIteration frame iteration state = none ∧
      ∃ execution, environment.loopStep frame iteration state = .ends execution ∧
        execution.uses = state.uses ∧ execution.result.output.state = .failed) ∨
    ∃ executed tests, environment.loopIteration frame iteration state = some executed ∧
      executed.iteration = iteration ∧
      (∀ use ∈ tests, use.isQuery = false ∧ use.isPause = false) ∧
      IterationEnd environment frame executed
        (state.uses ++ [.query executed.prompt] ++ tests)
        (environment.loopStep frame iteration state) := by
  rw [loopIteration, loopStep]
  cases prompted : environment.loopPrompt frame iteration state with
  | error failure => exact .inl ⟨rfl, _, rfl, rfl, rfl⟩
  | ok prompt =>
      right
      dsimp only
      generalize environment.loopPass iteration _ prompt = pass
      rw [finishIteration]
      split
      · refine ⟨_, [], rfl, rfl, List.forall_mem_nil _, .fails ?_ rfl⟩
        exact (List.append_nil _).symm
      · split
        · refine ⟨_, [], rfl, rfl, List.forall_mem_nil _, .fails ?_ rfl⟩
          exact (List.append_nil _).symm
        · refine ⟨_, (environment.runUntilBash frame.nodeOutputs (frame.userInput iteration)
            state.lastOutput frame.node.loopConfig.untilBash).2, rfl, rfl, runUntilBash_uses, ?_⟩
          dsimp only
          split
          next completes => exact .completes rfl (Bool.and_eq_true_iff.mp completes).1
          next =>
            split
            next message _ _ =>
              exact @loopGate_end environment frame _ message
                { iteration, prevOutput := state.lastOutput, prompt, pass } _ rfl
            · exact .continues rfl

end Iteration

/-! ## One activation -/

section Activation

variable {environment} {frame : LoopFrame}

structure LoopRun (environment : NodeEnvironment) (frame : LoopFrame) (start : Nat)
    (before : List Use) (trace : List LoopIteration) (execution : Execution) : Prop where
  numbers : trace.map LoopIteration.iteration = List.range' start trace.length
  queries : execution.uses.countP Use.isQuery = before.countP Use.isQuery + trace.length
  concludes : execution.Concludes → ∃ last, trace.getLast? = some last ∧
    environment.completionDetected frame last = true
  pauses : ∀ context, .pauseRun context ∈ execution.uses → ∃ last, trace.getLast? = some last ∧
    GateContext frame last.iteration context

theorem countP_isQuery_of_iteration {before tests : List Use} {prompt : String}
    (others : ∀ use ∈ tests, use.isQuery = false ∧ use.isPause = false) :
    (before ++ [Use.query prompt] ++ tests).countP Use.isQuery =
      before.countP Use.isQuery + 1 := by
  have none : tests.countP Use.isQuery = 0 := by
    apply List.countP_eq_zero.mpr
    intro use member
    rw [(others use member).1]
    exact Bool.false_ne_true
  rw [List.countP_append, List.countP_append, none]
  rfl

theorem not_isPause_of_iteration {before tests : List Use} {prompt : String}
    (earlier : ∀ use ∈ before, use.isPause = false)
    (others : ∀ use ∈ tests, use.isQuery = false ∧ use.isPause = false) :
    ∀ use ∈ before ++ [.query prompt] ++ tests, use.isPause = false := by
  intro use member
  rcases List.mem_append.mp member with member | member
  · rcases List.mem_append.mp member with member | member
    · exact earlier use member
    · cases List.mem_singleton.mp member
      rfl
  · exact (others use member).2

theorem LoopRun.of_failed {start : Nat} {execution : Execution}
    (numbers : trace.map LoopIteration.iteration = List.range' start trace.length)
    (queries : execution.uses.countP Use.isQuery = before.countP Use.isQuery + trace.length)
    (unpaused : ∀ use ∈ execution.uses, use.isPause = false)
    (failed : execution.result.output.state = .failed) :
    LoopRun environment frame start before trace execution where
  numbers := numbers
  queries := queries
  concludes concluded := by
    have completed := concluded.1
    rw [failed] at completed
    cases completed
  pauses context member := by
    cases unpaused _ member

theorem LoopRun.of_iterationEnd {executed : LoopIteration} {execution : Execution}
    (earlier : ∀ use ∈ before, use.isPause = false)
    (others : ∀ use ∈ tests, use.isQuery = false ∧ use.isPause = false)
    (ended : IterationEnd environment frame executed
      (before ++ [.query executed.prompt] ++ tests) (.ends execution)) :
    LoopRun environment frame executed.iteration before [executed] execution := by
  have queries := @countP_isQuery_of_iteration before tests executed.prompt others
  have unpaused := @not_isPause_of_iteration before tests executed.prompt earlier others
  cases ended with
  | fails kept failed =>
      apply LoopRun.of_failed rfl
      · rw [kept]
        exact queries
      · rw [kept]
        exact unpaused
      · exact failed
  | completes kept detected =>
      refine ⟨rfl, ?_, fun _ => ⟨executed, rfl, detected⟩, ?_⟩
      · rw [kept]
        exact queries
      · intro context member
        rw [kept] at member
        cases unpaused _ member
  | @pauses _ paused recorded gate =>
      have last : .pauseRun paused ∈ execution.uses := by
        rw [recorded]
        exact List.mem_append_right _ (List.mem_singleton_self _)
      refine ⟨rfl, ?_, ?_, ?_⟩
      · rw [recorded, List.countP_append, queries]
        rfl
      · intro concluded
        cases concluded.2 _ last
      · intro context member
        refine ⟨executed, rfl, ?_⟩
        rw [recorded] at member
        rcases List.mem_append.mp member with member | member
        · cases unpaused _ member
        · cases List.mem_singleton.mp member
          exact gate

theorem LoopRun.cons {before between : List Use} {executed : LoopIteration}
    {trace : List LoopIteration} {execution : Execution}
    (queries : between.countP Use.isQuery = before.countP Use.isQuery + 1)
    (rest : LoopRun environment frame (executed.iteration + 1) between trace execution) :
    LoopRun environment frame executed.iteration before (executed :: trace) execution := by
  have keepsLast : ∀ last, trace.getLast? = some last →
      (executed :: trace).getLast? = some last := by
    intro last found
    rw [List.getLast?_cons, found]
    rfl
  refine ⟨?_, ?_, ?_, ?_⟩
  · rw [List.map_cons, List.length_cons, List.range'_succ, rest.numbers]
  · rw [rest.queries, queries, List.length_cons]
    omega
  · intro concluded
    rcases rest.concludes concluded with ⟨last, found, detected⟩
    exact ⟨last, keepsLast last found, detected⟩
  · intro context member
    rcases rest.pauses context member with ⟨last, found, gate⟩
    exact ⟨last, keepsLast last found, gate⟩

theorem loopIterations_run (remaining start : Nat) (state : LoopState)
    (earlier : ∀ use ∈ state.uses, use.isPause = false) :
    LoopRun environment frame start state.uses
      (environment.loopTrace frame remaining start state)
      (environment.loopIterations frame remaining start state) := by
  induction remaining generalizing start state with
  | zero => exact LoopRun.of_failed rfl rfl earlier rfl
  | succ remaining induction =>
      rw [loopTrace, loopIterations]
      rcases @loopStep_cases environment frame start state with
        ⟨unsent, execution, ended, kept, failed⟩ | ⟨executed, tests, sent, rfl, others, ended⟩
      · rw [unsent, ended]
        apply LoopRun.of_failed rfl
        · rw [kept]
          rfl
        · rw [kept]
          exact earlier
        · exact failed
      · rw [sent]
        cases step : environment.loopStep frame executed.iteration state with
        | ends execution =>
            rw [step] at ended
            exact LoopRun.of_iterationEnd earlier others ended
        | continues next =>
            rw [step] at ended
            cases ended with
            | continues kept =>
                have queries : next.uses.countP Use.isQuery =
                    state.uses.countP Use.isQuery + 1 := by
                  rw [kept]
                  exact countP_isQuery_of_iteration others
                apply LoopRun.cons queries
                apply induction
                rw [kept]
                exact not_isPause_of_iteration earlier others

theorem length_loopTrace_le (remaining start : Nat) (state : LoopState) :
    (environment.loopTrace frame remaining start state).length ≤ remaining := by
  induction remaining generalizing start state with
  | zero => exact le_rfl
  | succ remaining induction =>
      rw [loopTrace]
      split
      · exact Nat.zero_le _
      · split
        · exact Nat.succ_le_succ (Nat.zero_le _)
        · exact Nat.succ_le_succ (induction _ _)

theorem executeLoopNode_run (environment : NodeEnvironment) (node : LoopNode)
    (nodeOutputs : NodeOutputs) :
    LoopRun environment (environment.loopFrame node nodeOutputs) (environment.startIteration node)
        [] (environment.executedIterations node nodeOutputs)
        (environment.executeLoopNode node nodeOutputs) ∧
      (environment.executedIterations node nodeOutputs).length ≤
        node.loopConfig.maxIterations + 1 - environment.startIteration node := by
  have stopped (error : String) : LoopRun environment (environment.loopFrame node nodeOutputs)
      (environment.startIteration node) [] [] (.fail error) :=
    LoopRun.of_failed rfl rfl (List.forall_mem_nil _) rfl
  rw [executedIterations, executeLoopNode]
  cases environment.resolveProvider (.loop node) with
  | error error => exact ⟨stopped _, Nat.zero_le _⟩
  | ok provider =>
      dsimp only
      by_cases registered : environment.isRegistered provider = true
      · rw [if_pos registered, if_pos registered]
        generalize (environment.approvalFor "interactive_loop" node.base.id).bind _ = session
        exact ⟨loopIterations_run _ _ { sessionId := session } (List.forall_mem_nil _),
          length_loopTrace_le _ _ _⟩
      · rw [if_neg registered, if_neg registered]
        exact ⟨stopped _, Nat.zero_le _⟩

end Activation

/-! ## Resuming -/

/-- A scalar member of an approval context is stored as it is, whatever the
metadata held before. -/
theorem get_jsonMerge_approval {dialect : Dialect} {metadata updated : Members}
    {context : ApprovalContext}
    (merged : dialect.jsonMerge (some (.object metadata))
      (.object [("approval", context.toValue)]) = some (.object updated)) :
    ∃ approval : Value, updated.get "approval" = some approval ∧
      ∀ key member, context.toMembers.get key = some member → member ≠ .null →
        member.asObject = none → approval.get key = some member := by
  have nodup : (Members.keys [("approval", context.toValue)]).Nodup := List.nodup_singleton _
  cases dialect with
  | postgres =>
      cases merged
      refine ⟨context.toValue, ?_, fun _ _ found _ _ => found⟩
      rw [Members.get_concat nodup]
      rfl
  | sqlite =>
      cases merged
      refine ⟨.object (Members.mergePatch
        (((Members.get metadata "approval").getD .null).asObject.getD []) context.toMembers),
        ?_, ?_⟩
      · rw [Members.get_mergePatch nodup]
        rfl
      · intro key member found present scalar
        change Members.get (Members.mergePatch _ context.toMembers) key = some member
        rw [Members.get_mergePatch context.keys_toMembers_nodup, found]
        cases member with
        | null => exact absurd rfl present
        | object => cases scalar
        | bool => rfl
        | number => rfl
        | string => rfl
        | array => rfl

theorem startIteration_of_gate {environment : NodeEnvironment} {frame : LoopFrame}
    {iteration : Nat} {context : ApprovalContext} {dialect : Dialect} {metadata updated : Members}
    (gate : GateContext frame iteration context) (bound : iteration < 2 ^ 32)
    (merged : dialect.jsonMerge (some (.object metadata))
      (.object [("approval", context.toValue)]) = some (.object updated))
    (kept : Members.get environment.run.metadata "approval" = updated.get "approval") :
    environment.startIteration frame.node = (iteration + 1) % 2 ^ 32 := by
  have finite : (F64.ofRat iteration).isFinite = true :=
    (F64.ofRat_natCast (bound.trans (by decide))).1
  rcases get_jsonMerge_approval merged with ⟨approval, found, scalars⟩
  have nodeId : approval.get "nodeId" = some (.string frame.node.base.id) := by
    refine scalars _ _ ?_ nofun rfl
    rw [context.get_toMembers, if_pos rfl, gate.nodeId]
  have message : approval.get "message" = some (.string context.message) := by
    refine scalars _ _ ?_ nofun rfl
    rw [context.get_toMembers]
    rfl
  have approvalType : approval.get "type" = some (.string "interactive_loop") := by
    refine scalars _ _ ?_ nofun rfl
    rw [context.get_toMembers, gate.approvalType]
    rfl
  have stored : approval.get "iteration" = some (.number (.float (F64.ofRat iteration))) := by
    refine scalars _ _ ?_ nofun rfl
    rw [context.get_toMembers, gate.iteration]
    simp [Value.ofF64, finite]
  have read : environment.approvalFor "interactive_loop" frame.node.base.id =
      some approval := by
    rw [approvalFor, kept, found]
    apply Option.filter_eq_some_iff.mpr
    refine ⟨rfl, ?_⟩
    simp [isApprovalContext, nodeId, message, approvalType, Value.asStr]
  rw [startIteration, read]
  dsimp only
  rw [stored]
  simp only [Option.bind_some, Value.asF64, Number.asF64, Option.getD_some]
  rw [F64.toUnsigned_ofRat (bound.trans (by decide)) bound]

end NodeEnvironment

/-! ## The life of a loop -/

structure Activation where
  environment : NodeEnvironment
  nodeOutputs : NodeOutputs

namespace Activation

def execution (node : LoopNode) (activation : Activation) : Execution :=
  activation.environment.executeLoopNode node activation.nodeOutputs

def iterations (node : LoopNode) (activation : Activation) : List LoopIteration :=
  activation.environment.executedIterations node activation.nodeOutputs

def queryCount (node : LoopNode) (activation : Activation) : Nat :=
  (activation.execution node).uses.countP Use.isQuery

def numbers (node : LoopNode) (activation : Activation) : List Nat :=
  (activation.iterations node).map LoopIteration.iteration

/-- A later activation reads the approval that an earlier one stored when it
paused, or the one that an earlier one had read itself if that failed. The rest of
the metadata may have changed since. -/
inductive Resumes (dialect : Dialect) (node : LoopNode) (earlier later : Activation) : Prop
  | paused {context : ApprovalContext} {metadata updated : Members}
      (pauses : .pauseRun context ∈ (earlier.execution node).uses)
      (merged : dialect.jsonMerge (some (.object metadata))
        (.object [("approval", context.toValue)]) = some (.object updated))
      (kept : Members.get later.environment.run.metadata "approval" = updated.get "approval") :
      Resumes dialect node earlier later
  | failed (unpaused : ∀ use ∈ (earlier.execution node).uses, use.isPause = false)
      (failed : (earlier.execution node).result.output.state = .failed)
      (kept : Members.get later.environment.run.metadata "approval" =
        Members.get earlier.environment.run.metadata "approval") :
      Resumes dialect node earlier later

def Renewed (node : LoopNode) (activation : Activation) : Prop :=
  (∃ context, .pauseRun context ∈ (activation.execution node).uses) ∨
    activation.iterations node = []

end Activation

inductive LoopLife (dialect : Dialect) (node : LoopNode) : List Activation → Prop
  | start {activation : Activation}
      (fresh : activation.environment.approvalFor "interactive_loop" node.base.id = none) :
      LoopLife dialect node [activation]
  | resume {earlier later : Activation} {life : List Activation}
      (lives : LoopLife dialect node (earlier :: life))
      (resumes : earlier.Resumes dialect node later) :
      LoopLife dialect node (later :: earlier :: life)

namespace LoopLife

open NodeEnvironment

variable {dialect : Dialect} {node : LoopNode} {activation earlier later : Activation}
  {life : List Activation}

def executed (node : LoopNode) (life : List Activation) : List Nat :=
  life.reverse.flatMap (Activation.numbers node)

theorem executed_cons (activation : Activation) (life : List Activation) :
    executed node (activation :: life) = executed node life ++ activation.numbers node := by
  rw [executed, List.reverse_cons, List.flatMap_append, List.flatMap_singleton]
  rfl

theorem numbers_eq (node : LoopNode) (activation : Activation) :
    activation.numbers node = List.range' (activation.environment.startIteration node)
      (activation.numbers node).length := by
  have run := (executeLoopNode_run activation.environment node activation.nodeOutputs).1
  have lengths : (activation.numbers node).length = (activation.iterations node).length :=
    List.length_map _
  rw [lengths]
  exact run.numbers

theorem length_numbers_le (node : LoopNode) (activation : Activation) :
    (activation.numbers node).length ≤
      node.loopConfig.maxIterations + 1 - activation.environment.startIteration node := by
  rw [Activation.numbers, List.length_map]
  exact (executeLoopNode_run activation.environment node activation.nodeOutputs).2

theorem queryCount_eq (node : LoopNode) (activation : Activation) :
    activation.queryCount node = (activation.numbers node).length := by
  have queries :=
    (executeLoopNode_run activation.environment node activation.nodeOutputs).1.queries
  rw [Activation.numbers, List.length_map, Activation.queryCount]
  exact queries.trans (Nat.zero_add _)

theorem sum_queryCount (node : LoopNode) (life : List Activation) :
    (life.map (Activation.queryCount node)).sum = (executed node life).length := by
  induction life with
  | nil => rfl
  | cons activation life induction =>
      rw [List.map_cons, List.sum_cons, induction, executed_cons, List.length_append,
        queryCount_eq]
      omega

theorem startIteration_of_fresh
    (fresh : activation.environment.approvalFor "interactive_loop" node.base.id = none) :
    activation.environment.startIteration node = 1 := by
  rw [startIteration, fresh]

theorem startIteration_congr {left right : NodeEnvironment}
    (kept : Members.get left.run.metadata "approval" = Members.get right.run.metadata "approval") :
    left.startIteration node = right.startIteration node := by
  rw [startIteration, startIteration, approvalFor, approvalFor, kept]

theorem startIteration_of_paused {context : ApprovalContext} {updated : Members}
    (paused : .pauseRun context ∈ (earlier.execution node).uses)
    (merged : dialect.jsonMerge (some (.object metadata))
      (.object [("approval", context.toValue)]) = some (.object updated))
    (kept : Members.get later.environment.run.metadata "approval" = updated.get "approval")
    (bound : earlier.environment.startIteration node + (earlier.numbers node).length ≤ 2 ^ 32) :
    later.environment.startIteration node =
      (earlier.environment.startIteration node + (earlier.numbers node).length) % 2 ^ 32 := by
  have run := (executeLoopNode_run earlier.environment node earlier.nodeOutputs).1
  rcases run.pauses context paused with ⟨last, found, gate⟩
  have lastNumber : (earlier.numbers node).getLast? = some last.iteration := by
    rw [Activation.numbers, List.getLast?_map, Activation.iterations, found]
    rfl
  have positive : 0 < (earlier.numbers node).length := by
    apply List.length_pos_iff.mpr
    intro empty
    rw [empty] at lastNumber
    cases lastNumber
  have number : last.iteration =
      earlier.environment.startIteration node + ((earlier.numbers node).length - 1) := by
    rw [numbers_eq, List.getLast?_range', if_neg (by omega)] at lastNumber
    have equal := Option.some.inj lastNumber
    omega
  have bounded : last.iteration < 2 ^ 32 := by omega
  rw [show node = (earlier.environment.loopFrame node earlier.nodeOutputs).node from rfl,
    startIteration_of_gate gate bounded merged kept]
  congr 1
  change _ = earlier.environment.startIteration node + (earlier.numbers node).length
  omega

theorem startIteration_of_resumes (resumes : earlier.Resumes dialect node later)
    (renewed : earlier.Renewed node)
    (bound : earlier.environment.startIteration node + (earlier.numbers node).length < 2 ^ 32) :
    later.environment.startIteration node =
      earlier.environment.startIteration node + (earlier.numbers node).length := by
  cases resumes with
  | paused pauses merged kept =>
      rw [startIteration_of_paused pauses merged kept (Nat.le_of_lt bound), Nat.mod_eq_of_lt bound]
  | failed unpaused failed kept =>
      rcases renewed with ⟨context, pauses⟩ | none
      · cases unpaused _ pauses
      · rw [startIteration_congr kept, Activation.numbers, none]
        rfl

theorem not_nodup_of_failed (resumes : earlier.Resumes dialect node later)
    (lost : ¬ earlier.Renewed node) (goesOn : later.iterations node ≠ []) :
    ¬ (executed node (later :: earlier :: life)).Nodup := by
  rcases not_or.mp lost with ⟨unpaused, shown⟩
  cases resumes with
  | paused pauses merged kept => exact absurd ⟨_, pauses⟩ unpaused
  | failed _ failed kept =>
      have first : ∀ {activation : Activation}, activation.iterations node ≠ [] →
          activation.environment.startIteration node ∈ activation.numbers node := by
        intro activation executes
        rw [numbers_eq, List.mem_range'_1]
        have positive : 0 < (activation.numbers node).length := by
          rw [Activation.numbers, List.length_map]
          exact List.length_pos_iff.mpr executes
        omega
      have again := first goesOn
      rw [startIteration_congr kept] at again
      rw [executed_cons, executed_cons, List.append_assoc]
      intro distinct
      exact List.disjoint_of_nodup_append (List.Nodup.of_append_right distinct) (first shown) again

structure Counted (node : LoopNode) (activation : Activation) (life : List Activation) :
    Prop where
  start : activation.environment.startIteration node = (executed node life).length + 1
  numbers : executed node (activation :: life) =
    List.range' 1 (executed node (activation :: life)).length
  bounded : (executed node (activation :: life)).length ≤ node.loopConfig.maxIterations

theorem counted_of_start
    (counts : executed node life = List.range' 1 (executed node life).length)
    (bounded : (executed node life).length ≤ node.loopConfig.maxIterations)
    (start : activation.environment.startIteration node = (executed node life).length + 1) :
    Counted node activation life := by
  have added := length_numbers_le node activation
  have numbers := numbers_eq node activation
  rw [start, Nat.add_comm _ 1] at numbers
  refine ⟨start, ?_, ?_⟩
  · rw [executed_cons, List.length_append]
    calc executed node life ++ activation.numbers node
        = List.range' 1 (executed node life).length ++
            List.range' (1 + (executed node life).length) (activation.numbers node).length := by
          rw [← counts, ← numbers]
      _ = List.range' 1 ((executed node life).length + (activation.numbers node).length) :=
          List.range'_append_1
  · rw [executed_cons, List.length_append]
    omega

theorem counted (bound : node.loopConfig.maxIterations + 1 < 2 ^ 32)
    (lives : LoopLife dialect node (activation :: life))
    (renews : ∀ earlier ∈ life, earlier.Renewed node) : Counted node activation life := by
  generalize whole : activation :: life = activations at lives
  induction lives generalizing activation life with
  | start fresh =>
      cases whole
      exact counted_of_start rfl (Nat.zero_le _) (startIteration_of_fresh fresh)
  | @resume earlier later older lives resumes induction =>
      cases whole
      rcases List.forall_mem_cons.mp renews with ⟨renewed, olderRenewed⟩
      have before := induction olderRenewed rfl
      have total : (executed node (earlier :: older)).length =
          (executed node older).length + (earlier.numbers node).length := by
        rw [executed_cons, List.length_append]
      have limit := before.bounded
      have start := before.start
      apply counted_of_start before.numbers before.bounded
      rw [startIteration_of_resumes resumes renewed (by omega), total]
      omega

end LoopLife

open NodeEnvironment LoopLife

namespace LoopLife

/-- A provider that always answers and never completes, in a run with the given
metadata. -/
def talkingEnvironment (metadata : Members) : NodeEnvironment where
  serde := { toString := fun _ => "", fromStr := fun _ => none }
  canWrite := fun _ => true
  run :=
    { id := "run", workflowName := "w", conversationId := "c", status := .running,
      userMessage := "", metadata, startedAt := 0 }
  artifactsDir := "/artifacts"
  logDir := "/logs"
  baseBranch := "main"
  docsDir := ""
  issueContext := none
  envVars := ∅
  persistSessions := false
  runSubprocess := fun _ => .success "" ""
  discoverScripts := .error "unavailable"
  loadCommandPrompt := fun _ => .error "unavailable"
  resolveProvider := fun _ => .ok "claude"
  isRegistered := fun _ => true
  sessionResume := fun _ => false
  persistedSession := fun _ _ => none
  stream := fun _ _ _ _ => { result := { output := .failure "unavailable" } }
  loopPass := fun _ _ _ => { fullOutput := "more", cleanOutput := "more" }
  detectCompletionSignal := fun _ _ => false
  runStatus := fun _ => .ok (some .running)
  sendGateMessage := true
  pauseRun := fun _ => .ok ()

def talkingNode (maxIterations : Nat) : LoopNode where
  base := { id := "talk", dependsOn := [] }
  loopConfig :=
    { prompt := "go", untilSignal := "DONE", maxIterations, interactive := some true,
      gateMessage := some "Continue?" }

def talkingContext (iteration : Nat) : ApprovalContext where
  nodeId := "talk"
  message := "Continue?"
  approvalType := some .interactiveLoop
  iteration := some (F64.ofRat iteration)

/-- The activation after a number of others, each of which executed one iteration. -/
def talkingActivation : Nat → Activation
  | 0 => { environment := talkingEnvironment [], nodeOutputs := ∅ }
  | count + 1 =>
      { environment := talkingEnvironment [("approval", (talkingContext (count + 1)).toValue)],
        nodeOutputs := ∅ }

section Talking

variable {metadata : Members} {frame : LoopFrame} {maxIterations : Nat}

theorem talking_loopPrompt (iteration : Nat) (state : LoopState) :
    ∃ prompt, (talkingEnvironment metadata).loopPrompt frame iteration state = .ok prompt := by
  cases prompted : (talkingEnvironment metadata).loopPrompt frame iteration state with
  | ok prompt => exact ⟨prompt, rfl⟩
  | error failure =>
      rw [loopPrompt] at prompted
      simp only [show (talkingEnvironment metadata).runStatus iteration = .ok (some .running)
        from rfl, shouldContinueStreamingForStatus, if_true] at prompted
      split at prompted
      next error failed =>
        have missing := (substituteWorkflowVariables_error_iff.mp ⟨error, failed⟩).1
        have present : "main" ≠ "" := by decide
        exact absurd missing present
      next => cases prompted

theorem talking_loopStep (same : frame.node = talkingNode maxIterations) (iteration : Nat) :
    ∃ executed execution,
      (talkingEnvironment metadata).loopIteration frame iteration {} = some executed ∧
      (talkingEnvironment metadata).loopStep frame iteration {} = .ends execution ∧
      .pauseRun (talkingContext iteration) ∈ execution.uses := by
  rcases @talking_loopPrompt metadata frame iteration {} with ⟨prompt, prompted⟩
  rcases frame with ⟨node, nodeOutputs, isResume, loopUserInput, start⟩
  cases same
  have notBlank : "more".isBlank = false := by decide
  rw [loopIteration, loopStep, prompted]
  simp [finishIteration, loopGate, runUntilBash, LoopState.afterPass, talkingEnvironment,
    talkingContext, notBlank]

theorem talking_startIteration {count : Nat} (bound : count < 2 ^ 32) :
    (talkingActivation count).environment.startIteration (talkingNode maxIterations) =
      (count + 1) % 2 ^ 32 := by
  cases count with
  | zero => exact startIteration_of_fresh rfl
  | succ count =>
      let frame : LoopFrame :=
        { node := talkingNode maxIterations, nodeOutputs := ∅, isResume := true,
          loopUserInput := "", start := 1 }
      have gate : GateContext frame (count + 1) (talkingContext (count + 1)) := ⟨rfl, rfl, rfl⟩
      exact @startIteration_of_gate _ _ _ _ .postgres [] _ gate bound rfl rfl

theorem talking_session (count : Nat) :
    (((talkingActivation count).environment.approvalFor "interactive_loop" "talk").bind
      fun value => (value.get "sessionId").bind Value.asStr) = none := by
  cases count with
  | zero => rfl
  | succ count =>
      rw [approvalFor]
      cases found : Option.filter _ _ with
      | none => rfl
      | some value =>
          have stored := (Option.filter_eq_some_iff.mp found).1
          cases stored
          rfl

theorem talkingActivation_eq (count : Nat) :
    ∃ metadata, talkingActivation count =
      { environment := talkingEnvironment metadata, nodeOutputs := ∅ } := by
  cases count with
  | zero => exact ⟨_, rfl⟩
  | succ count => exact ⟨_, rfl⟩

theorem talking_execution {count : Nat}
    (below : (talkingActivation count).environment.startIteration (talkingNode maxIterations) ≤
      maxIterations) :
    (talkingActivation count).queryCount (talkingNode maxIterations) = 1 ∧
      .pauseRun (talkingContext ((talkingActivation count).environment.startIteration
        (talkingNode maxIterations))) ∈
        ((talkingActivation count).execution (talkingNode maxIterations)).uses := by
  have session := talking_session count
  rw [queryCount_eq, Activation.numbers, List.length_map, Activation.iterations,
    Activation.execution]
  rcases talkingActivation_eq count with ⟨metadata, same⟩
  rw [same] at below session ⊢
  dsimp only at below session ⊢
  generalize frames : (talkingEnvironment metadata).loopFrame (talkingNode maxIterations) ∅ = frame
  have isNode : frame.node = talkingNode maxIterations := by
    rw [← frames]
    rfl
  have remaining : maxIterations + 1 -
      (talkingEnvironment metadata).startIteration (talkingNode maxIterations) =
      maxIterations - (talkingEnvironment metadata).startIteration (talkingNode maxIterations) +
        1 := by
    omega
  have iterations : (talkingEnvironment metadata).executedIterations
      (talkingNode maxIterations) ∅ =
      (talkingEnvironment metadata).loopTrace frame
        (maxIterations + 1 -
          (talkingEnvironment metadata).startIteration (talkingNode maxIterations))
        ((talkingEnvironment metadata).startIteration (talkingNode maxIterations)) {} := by
    rw [← frames, show ({} : LoopState) = { sessionId := none } from rfl, ← session]
    rfl
  have execution : (talkingEnvironment metadata).executeLoopNode (talkingNode maxIterations) ∅ =
      (talkingEnvironment metadata).loopIterations frame
        (maxIterations + 1 -
          (talkingEnvironment metadata).startIteration (talkingNode maxIterations))
        ((talkingEnvironment metadata).startIteration (talkingNode maxIterations)) {} := by
    rw [← frames, show ({} : LoopState) = { sessionId := none } from rfl, ← session]
    rfl
  rcases @talking_loopStep metadata frame maxIterations isNode
    ((talkingEnvironment metadata).startIteration (talkingNode maxIterations)) with
    ⟨executed, ended, sent, step, paused⟩
  rw [iterations, execution, remaining, loopTrace, loopIterations, sent, step]
  exact ⟨rfl, paused⟩

theorem talking_resumes (bound : count + 1 < 2 ^ 32) (below : count < maxIterations) :
    (talkingActivation count).Resumes .postgres (talkingNode maxIterations)
      (talkingActivation (count + 1)) := by
  have start := @talking_startIteration maxIterations count (by omega)
  rw [Nat.mod_eq_of_lt bound] at start
  have paused := (@talking_execution maxIterations count (by omega)).2
  rw [start] at paused
  exact @Activation.Resumes.paused _ _ _ _ _ [] _ paused rfl rfl

/-- A loop that always pauses lives as long as the next number is below the limit. -/
theorem talking_life {count : Nat} (bound : count < 2 ^ 32) (below : count ≤ maxIterations)
    (last : (count + 1) % 2 ^ 32 ≤ maxIterations) :
    ∃ life, LoopLife .postgres (talkingNode maxIterations) (talkingActivation count :: life) ∧
      (∀ earlier ∈ life, earlier.Renewed (talkingNode maxIterations)) ∧
      ((talkingActivation count :: life).map
        (Activation.queryCount (talkingNode maxIterations))).sum = count + 1 := by
  have start := @talking_startIteration maxIterations count bound
  have executes := (@talking_execution maxIterations count (by omega)).1
  induction count with
  | zero =>
      refine ⟨[], .start rfl, List.forall_mem_nil _, ?_⟩
      rw [List.map_singleton, List.sum_singleton, executes]
  | succ count induction =>
      have small : (count + 1) % 2 ^ 32 = count + 1 := Nat.mod_eq_of_lt bound
      have earlierStart := @talking_startIteration maxIterations count (by omega)
      have earlierExecutes := (@talking_execution maxIterations count (by omega)).1
      rcases induction (by omega) (by omega) (by omega) earlierStart earlierExecutes with
        ⟨life, lives, renews, total⟩
      have paused := (@talking_execution maxIterations count (by omega)).2
      refine ⟨_, .resume lives (talking_resumes bound (by omega)),
        List.forall_mem_cons.mpr ⟨.inl ⟨_, paused⟩, renews⟩, ?_⟩
      rw [List.map_cons, List.sum_cons, total, executes]
      omega

end Talking

end LoopLife

end HarnessAgent
