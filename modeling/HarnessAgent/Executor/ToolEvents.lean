import HarnessAgent.Executor.StreamEnd

/-! # The events of tools

A node reports each tool that its provider calls, and that the tool is done: when the
next one is called, or when the result arrives. A stream that ends in any other way
leaves its last tool open.
-/

namespace HarnessAgent

namespace AiEvent

def endsCall : AiEvent → Bool
  | .toolCalled .. => true
  | event => event.isTerminal

def isToolCompleted : AiEvent → Bool
  | .toolCompleted _ => true
  | _ => false

end AiEvent

namespace AiNode

open NodeEnvironment

/-- The events between a call and the next one, or the end of the node. -/
def duringCall (after : List AiEvent) : List AiEvent :=
  after.takeWhile fun event => !event.endsCall

/-- Every call of a tool is followed by exactly one completion, of the same tool, before
the next call and before the end of the node. -/
def ToolsPaired (events : List AiEvent) : Prop :=
  ∀ before toolName toolInput after, events = before ++ .toolCalled toolName toolInput :: after →
    (duringCall after).filter AiEvent.isToolCompleted = [.toolCompleted toolName]

def CallsTool (stream : ProviderStream) : Prop :=
  ∃ before arrival after, stream.arrivals = before ++ arrival :: after ∧ Quiet before ∧
    stops arrival.status = false ∧
      ∃ toolName toolInput, arrival.chunk = .tool toolName toolInput

def SettlesTools (stream : ProviderStream) : Prop :=
  CallsTool stream → ∃ chunk, DeliversResult stream chunk

/-! ## Pairs -/

theorem toolsPaired_nil : ToolsPaired [] := by
  intro before toolName toolInput after split
  exact absurd split.symm (by simp)

variable {event : AiEvent} {rest : List AiEvent}

theorem toolsPaired_cons :
    ToolsPaired (event :: rest) ↔
      (∀ toolName toolInput, event = .toolCalled toolName toolInput →
        (duringCall rest).filter AiEvent.isToolCompleted = [.toolCompleted toolName]) ∧
      ToolsPaired rest := by
  constructor
  · intro paired
    constructor
    · intro toolName toolInput called
      exact paired [] toolName toolInput rest (by rw [called]; rfl)
    · intro before toolName toolInput after split
      exact paired (event :: before) toolName toolInput after (by rw [split]; rfl)
  · rintro ⟨first, later⟩ before toolName toolInput after split
    cases before with
    | nil =>
        cases split
        exact first toolName toolInput rfl
    | cons other before =>
        cases split
        exact later before toolName toolInput after rfl

theorem toolsPaired_cons_of_other
    (other : ∀ toolName toolInput, event ≠ .toolCalled toolName toolInput) :
    ToolsPaired (event :: rest) ↔ ToolsPaired rest := by
  rw [toolsPaired_cons]
  exact and_iff_right fun toolName toolInput same => absurd same (other toolName toolInput)

def Fresh (events : List AiEvent) : Prop :=
  ∀ event ∈ events.head?, event.endsCall = true

variable {events : List AiEvent}

theorem duringCall_of_fresh (fresh : Fresh events) : duringCall events = [] := by
  cases events with
  | nil => rfl
  | cons event rest => exact List.takeWhile_cons_of_neg (by simp [fresh event rfl])

def completedCalls (calls : List (String × Value)) : List AiEvent :=
  calls.flatMap fun call => [.toolCalled call.1 call.2, .toolCompleted call.1]

def openCall (pending : Option (String × Value)) : List AiEvent :=
  (pending.map fun call => AiEvent.toolCalled call.1 call.2).toList

theorem completedCalls_cons (call : String × Value) (calls : List (String × Value)) :
    completedCalls (call :: calls) =
      .toolCalled call.1 call.2 :: .toolCompleted call.1 :: completedCalls calls :=
  rfl

theorem Fresh.calls {calls : List (String × Value)} {pending : Option (String × Value)}
    (fresh : Fresh rest) : Fresh (completedCalls calls ++ (openCall pending ++ rest)) := by
  cases calls with
  | cons call calls =>
      intro event first
      cases first
      rfl
  | nil => cases pending with
    | none => exact fresh
    | some call =>
        intro event first
        cases first
        rfl

variable {pending : Option (String × Value)}

theorem toolsPaired_calls {calls : List (String × Value)} (fresh : Fresh rest) :
    ToolsPaired (completedCalls calls ++ (openCall pending ++ rest)) ↔
      pending = none ∧ ToolsPaired rest := by
  induction calls with
  | nil =>
      cases pending with
      | none => exact (and_iff_right rfl).symm
      | some call =>
          apply iff_of_false
          · intro paired
            have completed : (duringCall rest).filter AiEvent.isToolCompleted =
                [.toolCompleted call.1] := (toolsPaired_cons.mp paired).1 call.1 call.2 rfl
            rw [duringCall_of_fresh fresh] at completed
            cases completed
          · rintro ⟨none, -⟩
            cases none
  | cons call calls induction =>
      have inside : duringCall (.toolCompleted call.1 ::
          (completedCalls calls ++ (openCall pending ++ rest))) = [.toolCompleted call.1] := by
        rw [duringCall, List.takeWhile_cons_of_pos rfl]
        exact congrArg _ (duringCall_of_fresh fresh.calls)
      rw [completedCalls_cons, List.cons_append, List.cons_append, toolsPaired_cons, inside,
        toolsPaired_cons_of_other (fun _ _ same => by cases same), induction]
      apply and_iff_right
      intro toolName toolInput same
      cases same
      rfl

/-! ## One stream -/

variable {settings : AiSettings} {nodeId : String}

structure Called (events : List AiEvent) (pending : Option (String × Value))
    (pass : StreamPass) : Prop where
  events : ∃ calls, pass.events = events ++ (completedCalls calls ++ openCall pending)
  lastTool : pass.lastTool = pending.map Prod.fst

theorem Called.completed {pass : StreamPass} (called : Called events pending pass) :
    Called events none pass.toolCompleted := by
  rcases called with ⟨⟨calls, split⟩, lastTool⟩
  refine ⟨?_, rfl⟩
  rw [StreamPass.toolCompleted, lastTool, split]
  cases pending with
  | none => exact ⟨calls, by simp [openCall]⟩
  | some call => exact ⟨calls ++ [call], by simp [openCall, completedCalls]⟩

theorem Called.tool {pass : StreamPass} (called : Called events pending pass) (toolName : String)
    (toolInput : Option Value) :
    Called events (some (toolName, toolInput.getD (.object []))) (pass.tool toolName toolInput) := by
  rcases called.completed with ⟨⟨calls, split⟩, -⟩
  refine ⟨⟨calls, ?_⟩, rfl⟩
  rw [StreamPass.tool, split]
  simp [openCall]

theorem streamLoop_called {before : List Arrival} (quiet : Quiet before) (staysSilent : Bool)
    (rest : List Arrival) {events : List AiEvent} {pending : Option (String × Value)}
    {pass : StreamPass} (called : Called events pending pass) :
    ∃ later remaining, streamLoop settings nodeId staysSilent (before ++ rest) pass =
        streamLoop settings nodeId staysSilent rest later ∧
      Called events remaining later ∧
      (remaining = none ↔ pending = none ∧
        ∀ arrival ∈ before, ∀ toolName toolInput, arrival.chunk ≠ .tool toolName toolInput) := by
  induction before generalizing pass pending with
  | nil => exact ⟨pass, pending, rfl, called, by simp⟩
  | cons arrival before induction =>
      have first := quiet arrival List.mem_cons_self
      have others : Quiet before := fun other member =>
        quiet other (List.mem_cons_of_mem _ member)
      rw [List.cons_append, streamLoop, first.1, if_neg Bool.false_ne_true]
      cases kind : arrival.chunk with
      | assistant content =>
          have same : Called events pending { pass with outputText := pass.outputText ++ content } :=
            ⟨called.events, called.lastTool⟩
          rcases induction others same with ⟨later, remaining, goesOn, isOpen, pendingIff⟩
          exact ⟨later, remaining, goesOn, isOpen, by simp [pendingIff, kind]⟩
      | tool toolName toolInput =>
          rcases induction others (called.tool toolName toolInput) with
            ⟨later, remaining, goesOn, isOpen, pendingIff⟩
          refine ⟨later, remaining, goesOn, isOpen, ?_⟩
          apply iff_of_false
          · intro none
            cases (pendingIff.mp none).1
          · intro clear
            exact clear.2 arrival List.mem_cons_self toolName toolInput kind
      | result chunk => exact absurd kind (first.2 chunk)
      | unused =>
          rcases induction others called with ⟨later, remaining, goesOn, isOpen, pendingIff⟩
          exact ⟨later, remaining, goesOn, isOpen, by simp [pendingIff, kind]⟩

/-! ## Which calls are read -/

variable {before : List Arrival}

theorem mem_or_eq_of_quiet {rest : List Arrival} (same : before ++ rest = earlier ++ own :: later)
    (quiet : Quiet earlier) (ends : ∀ arrival ∈ rest.head?,
      stops arrival.status = true ∨ ∃ chunk, arrival.chunk = .result chunk) :
    own ∈ before ∨ rest = own :: later := by
  rcases List.append_eq_append_iff.mp same with ⟨more, rfl, tail⟩ | ⟨more, rfl, tail⟩
  · cases more with
    | nil => exact .inr tail
    | cons first more =>
        rw [tail] at ends
        have silent := quiet first (by simp)
        rcases ends first rfl with stopped | ⟨chunk, result⟩
        · rw [silent.1] at stopped
          cases stopped
        · exact absurd result (silent.2 chunk)
  · cases more with
    | nil => exact .inr tail.symm
    | cons first more =>
        cases tail
        exact .inl (by simp)

variable {stream : ProviderStream}

theorem callsTool_iff {rest : List Arrival} (whole : stream.arrivals = before ++ rest)
    (quiet : Quiet before) (ends : ∀ arrival ∈ rest.head?,
      stops arrival.status = true ∨ ∃ chunk, arrival.chunk = .result chunk) :
    CallsTool stream ↔
      ∃ arrival ∈ before, ∃ toolName toolInput, arrival.chunk = .tool toolName toolInput := by
  constructor
  · rintro ⟨earlier, arrival, after, split, earlierQuiet, goesOn, called⟩
    rw [whole] at split
    rcases mem_or_eq_of_quiet split earlierQuiet ends with member | rfl
    · exact ⟨arrival, member, called⟩
    · rcases called with ⟨toolName, toolInput, tool⟩
      rcases ends arrival rfl with stopped | ⟨chunk, result⟩
      · rw [stopped] at goesOn
        cases goesOn
      · rw [result] at tool
        cases tool
  · rintro ⟨arrival, member, called⟩
    rcases List.append_of_mem member with ⟨earlier, later, rfl⟩
    refine ⟨earlier, arrival, later ++ rest, by rw [whole]; simp, ?_, ?_, called⟩
    · exact fun other inside => quiet other (List.mem_append_left _ inside)
    · exact (quiet arrival member).1

theorem not_deliversResult_of_quiet (quiet : Quiet stream.arrivals) (chunk : ResultChunk) :
    ¬DeliversResult stream chunk := by
  rintro ⟨before, arrival, after, whole, -, -, result⟩
  exact (quiet arrival (by simp [whole])).2 chunk result

theorem not_deliversResult_of_stopped (whole : stream.arrivals = before ++ arrival :: after)
    (quiet : Quiet before) (stopped : stops arrival.status = true) (chunk : ResultChunk) :
    ¬DeliversResult stream chunk := by
  rintro ⟨earlier, own, later, split, earlierQuiet, goesOn, result⟩
  rw [whole] at split
  have ends : ∀ first ∈ (arrival :: after).head?,
      stops first.status = true ∨ ∃ chunk, first.chunk = .result chunk := by
    intro first same
    cases same
    exact .inl stopped
  rcases mem_or_eq_of_quiet split earlierQuiet ends with member | same
  · exact (quiet own member).2 chunk result
  · cases same
    rw [stopped] at goesOn
    cases goesOn

theorem Called.of_runStreamPass {before : StreamPass} (called : Called events pending
      (streamLoop settings nodeId stream.staysSilent stream.arrivals before.restarted)) :
    Called events pending (runStreamPass settings nodeId stream before) := by
  rcases @runStreamPass_eq settings nodeId stream before with ⟨cost, pass⟩
  rw [pass]
  exact ⟨called.events, called.lastTool⟩

theorem runStreamPass_called (stream : ProviderStream) (before : StreamPass) :
    ∃ pending, Called before.events pending (runStreamPass settings nodeId stream before) ∧
      (pending = none ↔ SettlesTools stream) := by
  have start : Called before.events none before.restarted :=
    ⟨⟨[], by simp [completedCalls, openCall, StreamPass.restarted]⟩, rfl⟩
  have uncalled : ∀ arrivals : List Arrival, (∀ arrival ∈ arrivals, ∀ toolName toolInput,
      arrival.chunk ≠ .tool toolName toolInput) ↔
      ¬∃ arrival ∈ arrivals, ∃ toolName toolInput, arrival.chunk = .tool toolName toolInput := by
    intro arrivals
    simp
  rcases quiet_or_ends stream.arrivals with quiet | ⟨earlier, arrival, after, whole, quiet, ends⟩
  · rcases @streamLoop_called settings nodeId _ quiet stream.staysSilent [] _ _ _ start with
      ⟨later, pending, goesOn, called, pendingIff⟩
    refine ⟨pending, ?_, ?_⟩
    · apply Called.of_runStreamPass
      rw [← List.append_nil stream.arrivals, goesOn, streamLoop]
      split
      · exact ⟨called.events, called.lastTool⟩
      · exact called
    · have first : ∀ own ∈ ([] : List Arrival).head?,
          stops own.status = true ∨ ∃ chunk, own.chunk = .result chunk := by
        intro own same
        cases same
      rw [pendingIff, uncalled, ← callsTool_iff (List.append_nil _).symm quiet first]
      constructor
      · rintro ⟨-, none⟩ some
        exact absurd some none
      · intro settles
        refine ⟨rfl, fun some => ?_⟩
        rcases settles some with ⟨chunk, delivers⟩
        exact not_deliversResult_of_quiet quiet chunk delivers
  · rcases @streamLoop_called settings nodeId _ quiet stream.staysSilent (arrival :: after) _ _ _
      start with ⟨later, pending, goesOn, called, pendingIff⟩
    rcases ends with stopped | ⟨unstopped, chunk, result⟩
    · refine ⟨pending, ?_, ?_⟩
      · apply Called.of_runStreamPass
        rw [whole, goesOn, streamLoop, if_pos stopped]
        exact ⟨called.events, called.lastTool⟩
      · have first : ∀ own ∈ (arrival :: after).head?,
            stops own.status = true ∨ ∃ chunk, own.chunk = .result chunk := by
          intro own same
          cases same
          exact .inl stopped
        rw [pendingIff, uncalled, ← callsTool_iff whole quiet first]
        constructor
        · rintro ⟨-, none⟩ some
          exact absurd some none
        · intro settles
          refine ⟨rfl, fun some => ?_⟩
          rcases settles some with ⟨chunk, delivers⟩
          exact not_deliversResult_of_stopped whole quiet stopped chunk delivers
    · refine ⟨none, ?_, iff_of_true rfl fun _ => ?_⟩
      · apply Called.of_runStreamPass
        rw [whole, goesOn, streamLoop, unstopped, if_neg Bool.false_ne_true, result]
        exact ⟨called.completed.events, rfl⟩
      · exact ⟨chunk, earlier, arrival, after, whole, quiet, unstopped, result⟩

/-! ## All streams of a node -/

/-- What is added at the end of a node does not belong to a call. -/
def AddsEnding (pass : StreamPass) (execution : AiExecution) : Prop :=
  ∃ ending, execution.events = pass.events ++ ending ∧ Fresh ending ∧ ToolsPaired ending

theorem fresh_terminal (terminal : event.isTerminal = true) :
    Fresh [event] ∧ ToolsPaired [event] := by
  cases event with
  | nodeStarted command provider => cases terminal
  | toolCalled toolName toolInput => cases terminal
  | toolCompleted toolName => cases terminal
  | nodeFailed error =>
      constructor
      · intro first same
        cases same
        rfl
      · exact (toolsPaired_cons_of_other (fun _ _ same => by cases same)).mpr toolsPaired_nil
  | nodeCompleted output cost stopReason numTurns modelUsage =>
      constructor
      · intro first same
        cases same
        rfl
      · exact (toolsPaired_cons_of_other (fun _ _ same => by cases same)).mpr toolsPaired_nil

theorem addsEnding_fails (pass : StreamPass) (output error : String) (cost : Option F64)
    (written : Bool) : AddsEnding pass (pass.fails output error cost written) := by
  refine ⟨_, rfl, ?_⟩
  cases written with
  | false => exact ⟨nofun, toolsPaired_nil⟩
  | true => exact fresh_terminal rfl

theorem addsEnding_completeNode (pass : StreamPass) (outputText : String) :
    AddsEnding pass (completeNode settings nodeId pass outputText) := by
  rw [completeNode]
  split
  · exact addsEnding_fails ..
  · split
    · exact addsEnding_fails ..
    · split
      · exact addsEnding_fails ..
      · exact ⟨_, rfl, fresh_terminal rfl⟩

theorem addsEnding_finishPass (pass : StreamPass) :
    AddsEnding pass (finishPass settings nodeId pass) := by
  rw [finishPass]
  split
  · split
    · exact addsEnding_fails ..
    · exact addsEnding_fails ..
  · split
    · exact addsEnding_completeNode ..
    · split
      · split
        · exact addsEnding_completeNode ..
        · exact addsEnding_fails ..
      · exact addsEnding_fails ..
    · split
      · exact addsEnding_fails ..
      · exact addsEnding_fails ..

theorem events_exchange (resumeSession : Option String) (attempt : Nat) (prompt : String)
    (before : StreamPass) :
    let made := exchange settings nodeId resumeSession attempt prompt before
    ∃ added, (finishPass settings nodeId made.pass).events = before.events ++ added ∧
      Fresh added ∧ (ToolsPaired added ↔ SettlesTools made.stream) := by
  intro made
  rcases @runStreamPass_called settings nodeId made.stream before with
    ⟨pending, ⟨⟨calls, split⟩, -⟩, settles⟩
  rcases @addsEnding_finishPass settings nodeId made.pass with ⟨ending, events, fresh, paired⟩
  have called : made.pass.events = _ := split
  refine ⟨completedCalls calls ++ (openCall pending ++ ending), ?_, fresh.calls, ?_⟩
  · rw [events, called]
    simp
  · rw [toolsPaired_calls fresh, settles]
    exact and_iff_left paired

theorem reaskLoop_events (resumeSession : Option String) (remaining attempt : Nat)
    (prompt : String) (before : StreamPass) :
    ∃ added,
      (reaskLoop settings nodeId resumeSession remaining attempt prompt before).events =
        before.events ++ added ∧
      Fresh added ∧
      (ToolsPaired added ↔
        ∀ stream ∈ (reaskLoop settings nodeId resumeSession remaining attempt prompt
          before).exchanges.map Exchange.stream, SettlesTools stream) := by
  induction remaining generalizing attempt prompt before with
  | zero =>
      rw [reaskLoop, AiExecution.exchanges_after, exchanges_finishPass, List.map_singleton,
        List.forall_mem_singleton]
      exact events_exchange resumeSession attempt prompt before
  | succ remaining induction =>
      rw [reaskLoop]
      have last := @events_exchange settings nodeId resumeSession attempt prompt before
      rcases @runStreamPass_called settings nodeId
        (exchange settings nodeId resumeSession attempt prompt before).stream before with
        ⟨pending, ⟨⟨calls, split⟩, -⟩, settles⟩
      have called : (exchange settings nodeId resumeSession attempt prompt before).pass.events =
        _ := split
      dsimp only at last ⊢
      generalize exchange settings nodeId resumeSession attempt prompt before = made at *
      cases asked : reaskErrors settings made.pass with
      | none =>
          dsimp only
          rw [AiExecution.exchanges_after, exchanges_finishPass, List.map_singleton,
            List.forall_mem_singleton]
          exact last
      | some errors =>
          dsimp only
          rw [AiExecution.exchanges_after, List.map_cons, List.forall_mem_cons]
          rcases induction (attempt + 1) (buildReaskPrompt prompt errors) made.pass with
            ⟨added, events, fresh, paired⟩
          refine ⟨completedCalls calls ++ (openCall pending ++ added), ?_, fresh.calls, ?_⟩
          · rw [AiExecution.events_after, events, called]
            simp
          · rw [toolsPaired_calls fresh, settles, paired]

/-- The calls of a node's tools are paired with their completions exactly if every stream
that it reads, and in which a tool is called, delivers its result. -/
theorem executeNodeInternal_toolsPaired_iff (environment : NodeEnvironment)
    (settings : AiSettings) (node : DagNode) (provider : String) (nodeOutputs : NodeOutputs)
    (resumeSession : Option String) :
    ToolsPaired
        (executeNodeInternal environment settings node provider nodeOutputs resumeSession).events ↔
      ∀ stream ∈ executedStreams environment settings node provider nodeOutputs resumeSession,
        SettlesTools stream := by
  have started : ∀ {added : List AiEvent} {command : Option String},
      ToolsPaired ([.nodeStarted command provider] ++ added) ↔ ToolsPaired added :=
    fun {_ _} => toolsPaired_cons_of_other (fun _ _ same => by cases same)
  rw [executedStreams, executeNodeInternal]
  cases nodeDisplayName node with
  | none =>
      apply iff_of_true
      · exact (toolsPaired_cons_of_other (fun _ _ same => by cases same)).mpr toolsPaired_nil
      · exact List.forall_mem_nil _
  | some name =>
      cases firstPrompt environment node provider nodeOutputs with
      | error failure =>
          rcases addsEnding_fails (startedPass (.nodeStarted (nodeCommand node) provider)) ""
            failure.1 none failure.2 with ⟨ending, events, -, paired⟩
          apply iff_of_true
          · dsimp only
            rw [events]
            exact started.mpr paired
          · exact List.forall_mem_nil _
      | ok prompt =>
          rcases @reaskLoop_events settings node.id resumeSession (maxReasks settings) 0 prompt
            (startedPass (.nodeStarted (nodeCommand node) provider)) with
            ⟨added, events, -, paired⟩
          dsimp only
          rw [events, ← paired]
          exact started

def hungSettings : AiSettings where
  tables := CompletionTags.asciiTables
  structuredOutput := .none
  outputFormat := none
  maxBudgetUsd := none
  idleTimeoutMinutes := "30"
  sendQuery := fun _ _ _ =>
    { arrivals := [{ chunk := .tool "Bash" none }], staysSilent := true }
  validateStructuredOutput := fun _ _ => .valid
  serialize := fun _ => .ok ""

/-- The tool that was running when the node gave up is never reported as done. -/
theorem executeNodeInternal_leaves_tool_open :
    ∃ toolInput ending,
      (executeNodeInternal queriedEnvironment hungSettings promptNode "pi" ∅ none).events =
        [.nodeStarted none "pi", .toolCalled "Bash" toolInput, ending] ∧
      ending.isTerminal = true ∧
      ¬ToolsPaired
        (executeNodeInternal queriedEnvironment hungSettings promptNode "pi" ∅ none).events := by
  refine ⟨_, _, rfl, rfl, ?_⟩
  intro paired
  have settled := paired [.nodeStarted none "pi"] "Bash" _ _ rfl
  exact absurd settled (by decide +kernel)

end AiNode

end HarnessAgent
