import HarnessAgent.Executor.AiNode
import HarnessAgent.Provider.ResultContract

/-! # The end of a stream

A node should be completed by a result, or by a provider that fell silent after some
output. A stream may also just end: its provider has given up. Here it is said when a
node tells the two apart.
-/

namespace HarnessAgent

namespace AiNode

open Text NodeEnvironment

/-! ## How a stream ends -/

def Quiet (arrivals : List Arrival) : Prop :=
  ∀ arrival ∈ arrivals, stops arrival.status = false ∧ ∀ chunk, arrival.chunk ≠ .result chunk

def textOf : List Arrival → String
  | [] => ""
  | arrival :: arrivals =>
      match arrival.chunk with
      | .assistant content => content ++ textOf arrivals
      | _ => textOf arrivals

structure GivesUp (stream : ProviderStream) : Prop where
  quiet : Quiet stream.arrivals
  ends : stream.staysSilent = false

/-- The provider sends nothing more until the idle timeout. -/
structure FallsSilent (stream : ProviderStream) : Prop where
  quiet : Quiet stream.arrivals
  silent : stream.staysSilent = true

def IsStopped (stream : ProviderStream) : Prop :=
  ∃ before arrival after, stream.arrivals = before ++ arrival :: after ∧ Quiet before ∧
    stops arrival.status = true

def DeliversResult (stream : ProviderStream) (chunk : ResultChunk) : Prop :=
  ∃ before arrival after, stream.arrivals = before ++ arrival :: after ∧ Quiet before ∧
    stops arrival.status = false ∧ arrival.chunk = .result chunk

theorem Quiet.cons {arrival : Arrival} {arrivals : List Arrival}
    (first : stops arrival.status = false ∧ ∀ chunk, arrival.chunk ≠ .result chunk)
    (rest : Quiet arrivals) : Quiet (arrival :: arrivals) := by
  intro other member
  rcases List.mem_cons.mp member with rfl | later
  · exact first
  · exact rest other later

theorem quiet_or_ends (arrivals : List Arrival) :
    Quiet arrivals ∨ ∃ before arrival after, arrivals = before ++ arrival :: after ∧
      Quiet before ∧ (stops arrival.status = true ∨
        (stops arrival.status = false ∧ ∃ chunk, arrival.chunk = .result chunk)) := by
  induction arrivals with
  | nil => exact .inl fun _ member => absurd member List.not_mem_nil
  | cons arrival arrivals induction =>
      have nothing : Quiet [] := fun _ member => absurd member List.not_mem_nil
      cases stopped : stops arrival.status with
      | true => exact .inr ⟨[], arrival, arrivals, rfl, nothing, .inl stopped⟩
      | false =>
          by_cases result : ∃ chunk, arrival.chunk = .result chunk
          · exact .inr ⟨[], arrival, arrivals, rfl, nothing, .inr ⟨stopped, result⟩⟩
          · have first : stops arrival.status = false ∧ ∀ chunk, arrival.chunk ≠ .result chunk :=
              ⟨stopped, fun chunk same => result ⟨chunk, same⟩⟩
            rcases induction with quiet | ⟨before, ending, after, rfl, quiet, ends⟩
            · exact .inl (quiet.cons first)
            · exact .inr ⟨arrival :: before, ending, after, rfl, quiet.cons first, ends⟩

theorem stream_cases (stream : ProviderStream) :
    GivesUp stream ∨ FallsSilent stream ∨ IsStopped stream ∨
      ∃ chunk, DeliversResult stream chunk := by
  rcases quiet_or_ends stream.arrivals with quiet | ⟨before, arrival, after, whole, quiet, ends⟩
  · cases silent : stream.staysSilent with
    | false => exact .inl ⟨quiet, silent⟩
    | true => exact .inr (.inl ⟨quiet, silent⟩)
  · rcases ends with stopped | ⟨goesOn, chunk, result⟩
    · exact .inr (.inr (.inl ⟨before, arrival, after, whole, quiet, stopped⟩))
    · exact .inr (.inr (.inr ⟨chunk, before, arrival, after, whole, quiet, goesOn, result⟩))

/-! ## What a stream leaves -/

structure Unended (pass : StreamPass) : Prop where
  streamError : pass.streamError = none
  structuredOutput : pass.structuredOutput = none
  idleTimedOut : pass.idleTimedOut = false
  aborted : pass.aborted = false

variable {settings : AiSettings} {nodeId : String}

theorem streamLoop_quiet {before : List Arrival} (quiet : Quiet before) (staysSilent : Bool)
    (rest : List Arrival) {pass : StreamPass} (unended : Unended pass) :
    ∃ later, streamLoop settings nodeId staysSilent (before ++ rest) pass =
        streamLoop settings nodeId staysSilent rest later ∧
      Unended later ∧ later.outputText = pass.outputText ++ textOf before := by
  induction before generalizing pass with
  | nil => exact ⟨pass, rfl, unended, by simp [textOf]⟩
  | cons arrival before induction =>
      have first := quiet arrival List.mem_cons_self
      have others : Quiet before := fun other member =>
        quiet other (List.mem_cons_of_mem _ member)
      rw [List.cons_append, streamLoop, first.1, if_neg Bool.false_ne_true, textOf]
      cases kind : arrival.chunk with
      | assistant content =>
          have added : Unended { pass with outputText := pass.outputText ++ content } :=
            ⟨unended.streamError, unended.structuredOutput, unended.idleTimedOut, unended.aborted⟩
          rcases induction others added with ⟨later, same, ends, text⟩
          exact ⟨later, same, ends, by rw [text, String.append_assoc]⟩
      | tool toolName toolInput =>
          have called : Unended (pass.tool toolName toolInput) :=
            ⟨unended.streamError, unended.structuredOutput, unended.idleTimedOut, unended.aborted⟩
          exact induction others called
      | result chunk => exact absurd kind (first.2 chunk)
      | unused => exact induction others unended

variable {before : StreamPass}

theorem unended_restarted (unaborted : before.aborted = false) : Unended before.restarted :=
  ⟨rfl, rfl, rfl, unaborted⟩

theorem runStreamPass_of_givesUp {stream : ProviderStream} (givesUp : GivesUp stream)
    {before : StreamPass} (unaborted : before.aborted = false) :
    Unended (runStreamPass settings nodeId stream before) ∧
      (runStreamPass settings nodeId stream before).outputText = textOf stream.arrivals := by
  rcases @runStreamPass_eq settings nodeId stream before with ⟨cost, pass⟩
  rcases @streamLoop_quiet settings nodeId _ givesUp.quiet stream.staysSilent []
    _ (unended_restarted unaborted) with ⟨later, same, ends, text⟩
  rw [List.append_nil, streamLoop, givesUp.ends, if_neg Bool.false_ne_true] at same
  rw [pass, givesUp.ends, same]
  exact ⟨⟨ends.streamError, ends.structuredOutput, ends.idleTimedOut, ends.aborted⟩,
    text.trans String.empty_append⟩

theorem runStreamPass_of_fallsSilent {stream : ProviderStream} (silent : FallsSilent stream)
    {before : StreamPass} (unaborted : before.aborted = false) :
    (runStreamPass settings nodeId stream before).structuredOutput = none ∧
      (runStreamPass settings nodeId stream before).outputText = textOf stream.arrivals := by
  rcases @runStreamPass_eq settings nodeId stream before with ⟨cost, pass⟩
  rcases @streamLoop_quiet settings nodeId _ silent.quiet stream.staysSilent []
    _ (unended_restarted unaborted) with ⟨later, same, ends, text⟩
  rw [List.append_nil, streamLoop, silent.silent, if_pos rfl] at same
  rw [pass, silent.silent, same]
  exact ⟨ends.structuredOutput, text.trans String.empty_append⟩

theorem runStreamPass_of_isStopped {stream : ProviderStream} (stopped : IsStopped stream)
    {before : StreamPass} (unaborted : before.aborted = false) :
    (runStreamPass settings nodeId stream before).aborted = true ∧
      (runStreamPass settings nodeId stream before).idleTimedOut = false := by
  rcases @runStreamPass_eq settings nodeId stream before with ⟨cost, pass⟩
  rcases stopped with ⟨earlier, arrival, after, whole, quiet, stop⟩
  rcases @streamLoop_quiet settings nodeId _ quiet stream.staysSilent (arrival :: after)
    _ (unended_restarted unaborted) with ⟨later, same, ends, -⟩
  rw [streamLoop, if_pos stop] at same
  rw [pass, whole, same]
  exact ⟨rfl, ends.idleTimedOut⟩

theorem runStreamPass_of_deliversResult {stream : ProviderStream}
    (delivers : DeliversResult stream chunk) (unaborted : before.aborted = false) :
    (runStreamPass settings nodeId stream before).streamError =
      resultError settings nodeId chunk := by
  rcases @runStreamPass_eq settings nodeId stream before with ⟨cost, pass⟩
  rcases delivers with ⟨earlier, arrival, after, whole, quiet, goesOn, result⟩
  rcases @streamLoop_quiet settings nodeId _ quiet stream.staysSilent (arrival :: after)
    _ (unended_restarted unaborted) with ⟨later, same, -, -⟩
  rw [streamLoop, goesOn, if_neg Bool.false_ne_true, result] at same
  rw [pass, whole, same]
  rfl

/-! ## What a node reports -/

def Reports (state : NodeState) (execution : AiExecution) : Prop :=
  ∃ result, execution.result = some result ∧ result.output.state = state

theorem reports_fails (pass : StreamPass) (output error : String) (cost : Option F64)
    (written : Bool) : Reports .failed (pass.fails output error cost written) :=
  ⟨_, rfl, rfl⟩

theorem Reports.unique (left : Reports first execution) (right : Reports second execution) :
    first = second := by
  rcases left with ⟨result, found, rfl⟩
  rcases right with ⟨other, same, rfl⟩
  rw [found] at same
  cases same
  rfl

/-- A node is completed with a text unless it was stopped, has run out of credits, or
has nothing to show. -/
structure Completable (settings : AiSettings) (pass : StreamPass) (outputText : String) : Prop where
  unstopped : pass.aborted = true → pass.idleTimedOut = true
  credited : detectCreditExhaustion settings.tables outputText = none
  shown : outputText.isBlank = true → pass.structuredOutput.isSome = true

theorem completeNode_reports (pass : StreamPass) (outputText : String) :
    (Reports .completed (completeNode settings nodeId pass outputText) ∧
      Completable settings pass outputText) ∨
    (Reports .failed (completeNode settings nodeId pass outputText) ∧
      ¬ Completable settings pass outputText) := by
  unfold completeNode
  split
  · next stopped =>
      refine .inr ⟨reports_fails .., ?_⟩
      intro completable
      simp only [Bool.and_eq_true, Bool.not_eq_true'] at stopped
      have idle := completable.unstopped stopped.1
      rw [stopped.2] at idle
      cases idle
  · next unstopped =>
      split
      · next exhausted =>
          refine .inr ⟨reports_fails .., ?_⟩
          intro completable
          rw [completable.credited] at exhausted
          cases exhausted
      · next credited =>
          split
          · next empty =>
              refine .inr ⟨reports_fails .., ?_⟩
              intro completable
              simp only [Bool.and_eq_true, Option.isNone_iff_eq_none] at empty
              have structured := completable.shown empty.1
              rw [empty.2] at structured
              cases structured
          · next shown =>
              refine .inl ⟨⟨_, rfl, rfl⟩, ?_, credited, ?_⟩
              · intro aborted
                simpa [aborted] using unstopped
              · intro blank
                simpa [blank, Option.isSome_iff_ne_none] using shown

structure CompletableAsText (settings : AiSettings) (pass : StreamPass) : Prop where
  undeclared : settings.outputFormat = none
  completable : Completable settings pass pass.outputText

theorem finishPass_reports (pass : StreamPass) :
    (Reports .completed (finishPass settings nodeId pass) ∧ pass.streamError = none ∧
      (pass.aborted = true → pass.idleTimedOut = true) ∧
      (pass.structuredOutput = none → CompletableAsText settings pass)) ∨
    (Reports .failed (finishPass settings nodeId pass) ∧
      (pass.streamError = none → ¬ CompletableAsText settings pass)) := by
  unfold finishPass
  cases failed : pass.streamError with
  | some error =>
      refine .inr ⟨?_, fun none => by cases none⟩
      dsimp only
      split
      · exact reports_fails ..
      · exact reports_fails ..
  | none =>
      cases declared : settings.outputFormat with
      | none =>
          rcases @completeNode_reports settings nodeId pass pass.outputText with
            ⟨reports, completable⟩ | ⟨reports, incompletable⟩
          · exact .inl ⟨reports, rfl, completable.unstopped, fun _ => ⟨declared, completable⟩⟩
          · exact .inr ⟨reports, fun _ asText => incompletable asText.completable⟩
      | some schema =>
          have structured : ¬ CompletableAsText settings pass := by
            intro asText
            rw [asText.undeclared] at declared
            cases declared
          cases produced : pass.structuredOutput with
          | none =>
              refine .inr ⟨?_, fun _ => structured⟩
              dsimp only
              split
              · exact reports_fails ..
              · exact reports_fails ..
          | some output =>
              dsimp only
              split
              · split
                · next text _ =>
                    rcases @completeNode_reports settings nodeId pass text with
                      ⟨reports, completable⟩ | ⟨reports, -⟩
                    · refine .inl ⟨reports, rfl, completable.unstopped, ?_⟩
                      intro none
                      cases none
                    · exact .inr ⟨reports, fun _ => structured⟩
                · exact .inr ⟨reports_fails .., fun _ => structured⟩
              · exact .inr ⟨reports_fails .., fun _ => structured⟩

/-! ## The last stream -/

theorem reaskLoop_last (resumeSession : Option String) (remaining attempt : Nat)
    (prompt : String) {before : StreamPass} (unaborted : before.aborted = false) :
    ∃ made earlier, earlier.aborted = false ∧
      made.pass = runStreamPass settings nodeId made.stream earlier ∧
      (reaskLoop settings nodeId resumeSession remaining attempt prompt
        before).exchanges.getLast? = some made ∧
      (reaskLoop settings nodeId resumeSession remaining attempt prompt before).result =
        (finishPass settings nodeId made.pass).result := by
  induction remaining generalizing attempt prompt before with
  | zero =>
      rw [reaskLoop]
      refine ⟨_, before, unaborted, rfl, ?_, rfl⟩
      rw [AiExecution.exchanges_after, exchanges_finishPass]
      rfl
  | succ remaining induction =>
      rw [reaskLoop]
      cases asked : reaskErrors settings
          (exchange settings nodeId resumeSession attempt prompt before).pass with
      | none =>
          dsimp only
          refine ⟨_, before, unaborted, rfl, ?_, rfl⟩
          rw [AiExecution.exchanges_after, exchanges_finishPass]
          rfl
      | some errors =>
          dsimp only
          rw [reaskErrors] at asked
          split at asked
          · cases asked
          · next goesOn =>
              simp only [Bool.or_eq_true, not_or, Bool.not_eq_true] at goesOn
              rcases induction (attempt + 1) (buildReaskPrompt prompt errors) goesOn.2 with
                ⟨made, earlier, running, streamed, last, ends⟩
              refine ⟨made, earlier, running, streamed, ?_, ends⟩
              rw [AiExecution.exchanges_after, List.getLast?_cons_of_ne_nil]
              · exact last
              · intro none
                rw [none] at last
                cases last

/-- The provider ends its stream without a result, after a text that shows something
and does not say that the credits are used up. -/
structure GivesUpAfterText (settings : AiSettings) (stream : ProviderStream) : Prop where
  givesUp : GivesUp stream
  shown : (textOf stream.arrivals).isBlank = false
  credited : detectCreditExhaustion settings.tables (textOf stream.arrivals) = none

/-- What a completed node may rest on in its last stream: a result that is no error, or
some output before the idle timeout. -/
def IsDone (settings : AiSettings) (nodeId : String) (stream : ProviderStream) : Prop :=
  (∃ chunk, DeliversResult stream chunk ∧ resultError settings nodeId chunk = none) ∨
    (FallsSilent stream ∧ (textOf stream.arrivals).isBlank = false)

structure EndsHonestly (settings : AiSettings) (nodeId : String) (streams : List ProviderStream)
    (execution : AiExecution) : Prop where
  completed : Reports .completed execution →
    ∃ stream, streams.getLast? = some stream ∧ IsDone settings nodeId stream
  failed : ∀ stream, streams.getLast? = some stream → GivesUp stream → Reports .failed execution

theorem endsHonestly_congr {streams : List ProviderStream} (same : execution.result = other.result) :
    EndsHonestly settings nodeId streams execution ↔
      EndsHonestly settings nodeId streams other := by
  have reports : ∀ state, Reports state execution ↔ Reports state other := by
    intro state
    rw [Reports, Reports, same]
  constructor
  · intro honest
    exact ⟨fun completed => honest.completed ((reports _).mpr completed),
      fun stream last givesUp => (reports _).mp (honest.failed stream last givesUp)⟩
  · intro honest
    exact ⟨fun completed => honest.completed ((reports _).mp completed),
      fun stream last givesUp => (reports _).mpr (honest.failed stream last givesUp)⟩

theorem endsHonestly_finishPass_iff {stream : ProviderStream}
    (last : streams.getLast? = some stream) (unaborted : before.aborted = false) :
    EndsHonestly settings nodeId streams
        (finishPass settings nodeId (runStreamPass settings nodeId stream before)) ↔
      (settings.outputFormat = none → ¬ GivesUpAfterText settings stream) := by
  have reported := @finishPass_reports settings nodeId (runStreamPass settings nodeId stream before)
  constructor
  · intro honest undeclared afterText
    have ⟨unended, text⟩ :=
      @runStreamPass_of_givesUp settings nodeId stream afterText.givesUp before unaborted
    have failed := honest.failed stream last afterText.givesUp
    rcases reported with ⟨completed, -⟩ | ⟨-, incompletable⟩
    · exact absurd (completed.unique failed) (by decide)
    · refine incompletable unended.streamError ⟨undeclared, ?_, ?_, ?_⟩
      · intro aborted
        rw [unended.aborted] at aborted
        cases aborted
      · rw [text]
        exact afterText.credited
      · intro blank
        rw [text, afterText.shown] at blank
        cases blank
  · intro condition
    -- A completed node rests on the text of a provider that gave up only against the condition.
    have notGivenUp : GivesUp stream → Reports .failed
        (finishPass settings nodeId (runStreamPass settings nodeId stream before)) := by
      intro givesUp
      rcases reported with ⟨-, -, -, asText⟩ | ⟨failed, -⟩
      · have ⟨unended, text⟩ :=
          @runStreamPass_of_givesUp settings nodeId stream givesUp before unaborted
        have completable := asText unended.structuredOutput
        refine absurd ⟨givesUp, ?_, ?_⟩ (condition completable.undeclared)
        · by_contra blank
          rw [Bool.not_eq_false, ← text] at blank
          have structured := completable.completable.shown blank
          rw [unended.structuredOutput] at structured
          cases structured
        · rw [← text]
          exact completable.completable.credited
      · exact failed
    refine ⟨?_, fun other same givesUp => ?_⟩
    · intro completed
      refine ⟨stream, last, ?_⟩
      rcases reported with ⟨-, noError, unstopped, asText⟩ | ⟨failed, -⟩
      · rcases stream_cases stream with givesUp | silent | stopped | ⟨chunk, delivers⟩
        · exact absurd (completed.unique (notGivenUp givesUp)) (by decide)
        · have ⟨unstructured, text⟩ :=
            @runStreamPass_of_fallsSilent settings nodeId stream silent before unaborted
          refine .inr ⟨silent, ?_⟩
          by_contra blank
          rw [Bool.not_eq_false, ← text] at blank
          have structured := (asText unstructured).completable.shown blank
          rw [unstructured] at structured
          cases structured
        · have ⟨aborted, notIdle⟩ :=
            @runStreamPass_of_isStopped settings nodeId stream stopped before unaborted
          have idle := unstopped aborted
          rw [notIdle] at idle
          cases idle
        · rw [runStreamPass_of_deliversResult delivers unaborted] at noError
          exact .inl ⟨chunk, delivers, noError⟩
      · exact absurd (completed.unique failed) (by decide)
    · rw [last] at same
      cases same
      exact notGivenUp givesUp

end AiNode

open AiNode

theorem executeNodeInternal_endsHonestly_iff (environment : NodeEnvironment)
    (settings : AiSettings) (node : DagNode) (provider : String) (nodeOutputs : NodeOutputs)
    (resumeSession : Option String) :
    EndsHonestly settings node.id
        (executedStreams environment settings node provider nodeOutputs resumeSession)
        (executeNodeInternal environment settings node provider nodeOutputs resumeSession) ↔
      ∀ prompt, (nodeDisplayName node).isSome = true →
        firstPrompt environment node provider nodeOutputs = .ok prompt →
        settings.outputFormat = none →
        ¬ GivesUpAfterText settings (settings.sendQuery 0 prompt resumeSession) := by
  rw [executedStreams, executeNodeInternal]
  cases nodeDisplayName node with
  | none =>
      refine iff_of_true ⟨?_, ?_⟩ (fun prompt named => by cases named)
      · rintro ⟨result, none, -⟩
        cases none
      · intro stream none
        cases none
  | some name =>
      cases prompted : firstPrompt environment node provider nodeOutputs with
      | error failure =>
          refine iff_of_true ⟨?_, ?_⟩ (fun prompt _ same => by cases same)
          · intro completed
            exact absurd (completed.unique (reports_fails ..)) (by decide)
          · intro stream none
            cases none
      | ok prompt =>
          dsimp only
          rcases @reaskLoop_last settings node.id resumeSession (maxReasks settings) 0 prompt
              (startedPass (.nodeStarted (nodeCommand node) provider)) rfl with
            ⟨made, earlier, unaborted, streamed, last, ends⟩
          have ended : ((reaskLoop settings node.id resumeSession (maxReasks settings) 0 prompt
              (startedPass (.nodeStarted (nodeCommand node) provider))).exchanges.map
                Exchange.stream).getLast? = some made.stream := by
            rw [List.getLast?_map, last, Option.map_some]
          rw [streamed] at ends
          rw [endsHonestly_congr ends, endsHonestly_finishPass_iff ended unaborted]
          -- Without a declared structure there is one stream only.
          have only : settings.outputFormat = none →
              made.stream = settings.sendQuery 0 prompt resumeSession := by
            intro undeclared
            have once : maxReasks settings = 0 := by simp [maxReasks, undeclared]
            rw [once, reaskLoop, AiExecution.exchanges_after, exchanges_finishPass] at last
            cases last
            rfl
          constructor
          · intro condition other _ same undeclared
            cases same
            rw [← only undeclared]
            exact condition undeclared
          · intro condition undeclared
            rw [only undeclared]
            exact condition prompt rfl rfl undeclared

namespace AiNode

def received : Provider.MessageChunk → MessageChunk
  | .assistant content _ => .assistant content
  | .tool toolName toolInput _ => .tool toolName toolInput
  | .result fields =>
      .result {
        sessionId := fields.sessionId
        structuredOutput := fields.structuredOutput
        isError := fields.isError
        errorSubtype := fields.errorSubtype
        errors := fields.errors
        cost := fields.cost
        stopReason := fields.stopReason
        numTurns := fields.numTurns
        modelUsage := fields.modelUsage }
  | _ => .unused

def textLine : String :=
  "\x7b\"type\":\"message_update\",\"assistantMessageEvent\":" ++
    "\x7b\"type\":\"text_delta\",\"delta\":\"Half an answer\"\x7d\x7d"

def textFromStr (text : String) : Option Value :=
  if text = textLine then
    some (.object [("type", .string "message_update"),
      ("assistantMessageEvent",
        .object [("type", .string "text_delta"), ("delta", .string "Half an answer")])])
  else (lineFromStr text).toOption

/-- The Pi CLI streams a text and exits before the agent ends. -/
def cutAfterText : Pi.Query where
  model := some "google/gemini-2.5-pro"
  cliVariable := some "pi"
  session := { lines := [.ok stateLine, .ok textLine] }

def cutSettings : AiSettings where
  tables := CompletionTags.asciiTables
  structuredOutput := .none
  outputFormat := none
  maxBudgetUsd := none
  idleTimeoutMinutes := "30"
  sendQuery := fun _ _ _ =>
    { arrivals := (Pi.sendQuery (fun _ => "") textFromStr cutAfterText).map fun chunk =>
        { chunk := received chunk } }
  validateStructuredOutput := fun _ _ => .valid
  serialize := fun _ => .ok ""

end AiNode

theorem executeNodeInternal_completed_by_cut :
    Reports .completed
        (executeNodeInternal queriedEnvironment cutSettings promptNode "pi" ∅ none) ∧
      ¬ EndsHonestly cutSettings promptNode.id
        (executedStreams queriedEnvironment cutSettings promptNode "pi" ∅ none)
        (executeNodeInternal queriedEnvironment cutSettings promptNode "pi" ∅ none) := by
  have state : (executeNodeInternal queriedEnvironment cutSettings promptNode "pi" ∅
      none).result.map (fun result => result.output.state) = some .completed := by
    decide +kernel
  have completed : Reports .completed
      (executeNodeInternal queriedEnvironment cutSettings promptNode "pi" ∅ none) := by
    rcases Option.map_eq_some_iff.mp state with ⟨result, found, same⟩
    exact ⟨result, found, same⟩
  have chunks : Pi.sendQuery (fun _ => "") textFromStr cutAfterText =
      [.assistant "Half an answer" none] := by
    decide +kernel
  have sent : ∀ prompt, cutSettings.sendQuery 0 prompt none =
      { arrivals := [{ chunk := .assistant "Half an answer" }] } := by
    intro prompt
    simp only [cutSettings, chunks]
    rfl
  have stream : (executedStreams queriedEnvironment cutSettings promptNode "pi" ∅
      none).getLast? = some { arrivals := [{ chunk := .assistant "Half an answer" }] } := by
    have shown : nodeDisplayName promptNode = some "Summarize" := by decide
    have once : maxReasks cutSettings = 0 := rfl
    rcases (⟨_, rfl⟩ : ∃ prompt, firstPrompt queriedEnvironment promptNode "pi" ∅ = .ok prompt)
      with ⟨prompt, prompted⟩
    rw [executedStreams, executeNodeInternal, shown, prompted]
    dsimp only
    rw [once, reaskLoop, AiExecution.exchanges_after, exchanges_finishPass]
    exact congrArg some (sent prompt)
  have givesUp : GivesUp { arrivals := [{ chunk := .assistant "Half an answer" }] } := by
    refine ⟨?_, rfl⟩
    intro arrival member
    rw [List.mem_singleton.mp member]
    exact ⟨rfl, fun chunk same => by cases same⟩
  refine ⟨completed, ?_⟩
  intro honest
  have failed := honest.failed _ stream givesUp
  exact absurd (completed.unique failed) (by decide)

end HarnessAgent
