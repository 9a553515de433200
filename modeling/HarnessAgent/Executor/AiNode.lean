import HarnessAgent.Executor.CompletionTags
import HarnessAgent.Executor.ReferenceFailure
import HarnessAgent.Foundation.Float64Exact

/-! # AI nodes

An AI node streams the answer of its provider, and asks again while a best-effort
provider does not answer with the declared structure. The store gets an event when
the node starts, for its tools, and on some of the ways it ends.
-/

namespace HarnessAgent

inductive StructuredOutputCapability
  | enforced
  | bestEffort
  | none
  deriving DecidableEq, Repr

structure ResultChunk where
  sessionId : Option String := none
  structuredOutput : Option Value := none
  isError : Option Bool := none
  errorSubtype : Option String := none
  errors : Option (List String) := none
  cost : Option F64 := none
  stopReason : Option String := none
  numTurns : Option Nat := none
  modelUsage : Option Members := none
  deriving DecidableEq, Repr

/-- What a provider streams; `unused` is everything that only reaches the user. -/
inductive MessageChunk
  | assistant (content : String)
  | tool (toolName : String) (toolInput : Option Value)
  | result (chunk : ResultChunk)
  | unused
  deriving DecidableEq, Repr

structure Arrival where
  chunk : MessageChunk
  status : Option (Except String (Option WorkflowRunStatus)) := none

/-- What a provider sends for a query, and whether it then stays silent until the
idle timeout. -/
structure ProviderStream where
  arrivals : List Arrival
  staysSilent : Bool := false

inductive StructuredValidationResult
  | valid
  | invalid (errors : List String)
  deriving DecidableEq, Repr

/-- What an AI node is run with besides the settings of the run: the capabilities of
its provider, its options, the provider itself and the libraries it uses. -/
structure AiSettings where
  tables : RegexTables
  structuredOutput : StructuredOutputCapability
  outputFormat : Option Members
  maxBudgetUsd : Option F64
  idleTimeoutMinutes : String
  sendQuery : Nat → String → Option String → ProviderStream
  validateStructuredOutput : Value → Value → StructuredValidationResult
  serialize : Value → Except String String

inductive AiEvent
  | nodeStarted (command : Option String) (provider : String)
  | toolCalled (toolName : String) (toolInput : Value)
  | toolCompleted (toolName : String)
  | nodeFailed (error : String)
  | nodeCompleted (output : String) (cost : Option F64) (stopReason : Option String)
      (numTurns : Option Nat) (modelUsage : Option Members)
  deriving DecidableEq, Repr

namespace AiEvent

def isTerminal : AiEvent → Bool
  | .nodeFailed _ => true
  | .nodeCompleted .. => true
  | _ => false

def isCompleted : AiEvent → Bool
  | .nodeCompleted .. => true
  | _ => false

end AiEvent

namespace AiNode

/-! ## One stream -/

structure StreamPass where
  outputText : String := ""
  structuredOutput : Option Value := none
  passCost : Option F64 := none
  idleTimedOut : Bool := false
  streamError : Option String := none
  lastTool : Option String := none
  aborted : Bool := false
  sessionId : Option String := none
  stopReason : Option String := none
  numTurns : Option Nat := none
  modelUsage : Option Members := none
  accumulatedCost : Option F64 := none
  events : List AiEvent := []

structure Query where
  attempt : Nat
  prompt : String
  resumeSession : Option String
  deriving DecidableEq, Repr

structure Exchange where
  query : Query
  stream : ProviderStream
  pass : StreamPass

end AiNode

structure AiExecution where
  result : Option NodeResult
  events : List AiEvent
  exchanges : List AiNode.Exchange := []

namespace AiExecution

def after (execution : AiExecution) (exchange : AiNode.Exchange) : AiExecution :=
  { execution with exchanges := exchange :: execution.exchanges }

variable (execution : AiExecution) (exchange : AiNode.Exchange)


@[simp] theorem events_after : (execution.after exchange).events = execution.events := rfl

@[simp] theorem exchanges_after :
    (execution.after exchange).exchanges = exchange :: execution.exchanges := rfl

end AiExecution

namespace AiNode

open Text NodeEnvironment

namespace StreamPass

/-- A new stream starts over, except for what the node keeps. -/
def restarted (before : StreamPass) : StreamPass where
  aborted := before.aborted
  sessionId := before.sessionId
  stopReason := before.stopReason
  numTurns := before.numTurns
  modelUsage := before.modelUsage
  accumulatedCost := before.accumulatedCost
  events := before.events

/-- The tool before the next one, or before the result, is reported as completed. -/
def toolCompleted (pass : StreamPass) : StreamPass :=
  { pass with
    lastTool := none
    events := pass.events ++ (pass.lastTool.map AiEvent.toolCompleted).toList }

def tool (pass : StreamPass) (toolName : String) (toolInput : Option Value) : StreamPass :=
  { pass.toolCompleted with
    lastTool := some toolName
    events := pass.toolCompleted.events ++
      [.toolCalled toolName (toolInput.getD (.object []))] }

end StreamPass

def twoDigits (number : Nat) : String :=
  toString (number / 10 % 10) ++ toString (number % 10)

def formatCents (number : F64) : String :=
  if number.isNan then "NaN"
  else
    let magnitude :=
      if number.isFinite then
        let cents := (F64.roundHalfEven (100 * |number.value|)).toNat
        toString (cents / 100) ++ "." ++ twoDigits cents
      else "inf"
    if number.isNegative then "-" ++ magnitude else magnitude

def resultError (settings : AiSettings) (nodeId : String) (chunk : ResultChunk) :
    Option String :=
  if chunk.isError = some true ∧ chunk.errorSubtype = some "error_max_budget_usd" then
    some ("Node '" ++ nodeId ++ "' exceeded cost cap" ++
      (settings.maxBudgetUsd.map fun cap => " of $" ++ formatCents cap).getD "" ++ ".")
  else if chunk.isError = some true ∧ chunk.errorSubtype ≠ some "success" then
    some ("Node '" ++ nodeId ++ "' failed: SDK returned " ++
      chunk.errorSubtype.getD "unknown" ++
      ((chunk.errors.filter fun errors => !errors.isEmpty).map fun errors =>
        " — " ++ "; ".intercalate errors).getD "")
  else none

def StreamPass.result (pass : StreamPass) (settings : AiSettings) (nodeId : String)
    (chunk : ResultChunk) : StreamPass :=
  { pass.toolCompleted with
    sessionId := chunk.sessionId.or pass.sessionId
    passCost := chunk.cost.or pass.passCost
    stopReason := chunk.stopReason.or pass.stopReason
    numTurns := chunk.numTurns.or pass.numTurns
    modelUsage := chunk.modelUsage.or pass.modelUsage
    structuredOutput := chunk.structuredOutput.or pass.structuredOutput
    streamError := resultError settings nodeId chunk }

def stops : Option (Except String (Option WorkflowRunStatus)) → Bool
  | some (.ok status) => !shouldContinueStreamingForStatus status
  | _ => false

def streamLoop (settings : AiSettings) (nodeId : String) (staysSilent : Bool) :
    List Arrival → StreamPass → StreamPass
  | [], pass =>
      if staysSilent then { pass with idleTimedOut := true, aborted := true } else pass
  | arrival :: arrivals, pass =>
      if stops arrival.status then { pass with aborted := true }
      else
        match arrival.chunk with
        | .assistant content =>
            streamLoop settings nodeId staysSilent arrivals
              { pass with outputText := pass.outputText ++ content }
        | .tool toolName toolInput =>
            streamLoop settings nodeId staysSilent arrivals (pass.tool toolName toolInput)
        | .result chunk => pass.result settings nodeId chunk
        | .unused => streamLoop settings nodeId staysSilent arrivals pass

/-- One query and its stream, with its cost added to that of the node. A stream that
ends in an error is left before its cost is added. -/
def runStreamPass (settings : AiSettings) (nodeId : String) (stream : ProviderStream)
    (before : StreamPass) : StreamPass :=
  let pass := streamLoop settings nodeId stream.staysSilent stream.arrivals before.restarted
  match pass.streamError, pass.passCost with
  | none, some cost =>
      { pass with accumulatedCost := some (pass.accumulatedCost.getD F64.zero + cost) }
  | _, _ => pass

/-! ## Asking again -/

def structuredOutputMaxReasks : Nat := 3

def maxReasks (settings : AiSettings) : Nat :=
  if settings.structuredOutput = .bestEffort ∧ settings.outputFormat.isSome then
    structuredOutputMaxReasks
  else 0

def buildReaskPrompt (originalPrompt : String) (errors : List String) : String :=
  originalPrompt ++ "\n\n--- CORRECTION ---\nYour previous response did not satisfy the " ++
    "required JSON schema: " ++ "; ".intercalate errors ++
    ". Respond again with ONLY a JSON object matching the schema — no prose, no code fences."

def structureErrors (settings : AiSettings) (pass : StreamPass) : Option (List String) :=
  match settings.outputFormat, pass.structuredOutput with
  | none, _ => none
  | some schema, some output =>
      match settings.validateStructuredOutput output (.object schema) with
      | .valid => none
      | .invalid errors => some errors
  | some _, none => some ["no JSON object was found in the response"]

/-- The errors to ask again with, while attempts are left. A stream that failed, was
silent or was stopped is not asked again. -/
def reaskErrors (settings : AiSettings) (pass : StreamPass) : Option (List String) :=
  if pass.streamError.isSome || pass.idleTimedOut || pass.aborted then none
  else structureErrors settings pass

def exchange (settings : AiSettings) (nodeId : String) (resumeSession : Option String)
    (attempt : Nat) (prompt : String) (before : StreamPass) : Exchange :=
  let query : Query :=
    { attempt, prompt, resumeSession := if attempt = 0 then resumeSession else none }
  let stream := settings.sendQuery query.attempt query.prompt query.resumeSession
  { query, stream, pass := runStreamPass settings nodeId stream before }

/-! ## The end of a node -/

def sessionLimitPatterns : List String :=
  ["hit your session limit", "session limit reached", "session limit has been reached"]

def creditExhaustionPatterns : List String :=
  ["you're out of extra usage", "out of credits", "credit balance", "insufficient credit"]

def clause : Matcher (List Char) := fun text =>
  let isPart (character : Char) : Bool :=
    character ≠ '\n' && character ≠ '·' && character ≠ '.' && character ≠ '!'
  identifier isPart isPart text

def space : Matcher Unit
  | character :: rest => if isWhitespace character then some ((), rest) else none
  | [] => none

def extractResetTime (tables : RegexTables) (text : List Char) : Option (List Char) :=
  (((Matcher.folded tables.sameCase "resets".toList).bind fun _ =>
    space.bind fun _ => clause.afterSpaces).anywhere text).map fun found => trim found.1

def detectCreditExhaustion (tables : RegexTables) (text : String) : Option String :=
  let lower := lowercase text.toList
  let mentions (pattern : String) := occurs pattern.toList lower
  if sessionLimitPatterns.any mentions then
    some <|
      match extractResetTime tables text.toList with
      | some time =>
          "Claude session limit reached — resets " ++ String.ofList time ++
            ". Abandon this run and retry after reset."
      | none =>
          "Claude session limit reached — abandon this run and retry when the session resets."
  else if creditExhaustionPatterns.any mentions then
    some "Credit exhaustion detected — resume when credits reset"
  else none

namespace StreamPass

def fails (pass : StreamPass) (output error : String) (cost : Option F64) (written : Bool) :
    AiExecution where
  result := some { output := .failed output pass.sessionId error none none, cost }
  events := pass.events ++ if written then [.nodeFailed error] else []

end StreamPass

def emptyOutputError (settings : AiSettings) (nodeId : String) (idleTimedOut : Bool) : String :=
  if idleTimedOut then
    "Node '" ++ nodeId ++ "' timed out with no output (idle for " ++
      settings.idleTimeoutMinutes ++ " min). The provider did not emit any content before the " ++
      "watchdog fired — likely time-to-first-token exceeded the timeout. Consider increasing " ++
      "idle_timeout or reducing prompt size."
  else
    "Node '" ++ nodeId ++ "' produced no assistant output. The provider stream closed without " ++
      "yielding content — likely a silent provider rejection or stream interruption."

/-- The end of a node after its last stream, with the output it is left with. -/
def completeNode (settings : AiSettings) (nodeId : String) (pass : StreamPass)
    (outputText : String) : AiExecution :=
  if pass.aborted && !pass.idleTimedOut then
    pass.fails outputText "Cancelled by user" pass.accumulatedCost true
  else
    match detectCreditExhaustion settings.tables outputText with
    | some error => pass.fails outputText error pass.accumulatedCost true
    | none =>
        if outputText.isBlank && pass.structuredOutput.isNone then
          pass.fails "" (emptyOutputError settings nodeId pass.idleTimedOut)
            pass.accumulatedCost true
        else
          { result := some
              { output := .completed outputText pass.sessionId pass.structuredOutput
                  (declaredFieldsFromSchema (settings.outputFormat.map Value.object)),
                cost := pass.accumulatedCost },
            events := pass.events ++
              [.nodeCompleted outputText pass.accumulatedCost pass.stopReason pass.numTurns
                pass.modelUsage] }

def outputTextOf (settings : AiSettings) : Value → Except String String
  | .string text => .ok text
  | output => settings.serialize output

def finishPass (settings : AiSettings) (nodeId : String) (pass : StreamPass) : AiExecution :=
  match pass.streamError with
  | some error =>
      if pass.aborted && !pass.idleTimedOut then
        pass.fails pass.outputText "Cancelled by user" pass.passCost false
      else pass.fails "" error pass.passCost true
  | none =>
      match settings.outputFormat, pass.structuredOutput with
      | none, _ => completeNode settings nodeId pass pass.outputText
      | some schema, some output =>
          match settings.validateStructuredOutput output (.object schema) with
          | .valid =>
              match outputTextOf settings output with
              | .ok text => completeNode settings nodeId pass text
              | .error error =>
                  pass.fails "" ("Node '" ++ nodeId ++
                    "': failed to serialize structured_output to JSON: " ++ error)
                    pass.accumulatedCost false
          | .invalid errors =>
              pass.fails "" ("Node '" ++ nodeId ++ "': output_format declared but the " ++
                "provider's structured output failed schema validation: " ++
                "; ".intercalate errors) pass.accumulatedCost false
      | some _, none =>
          if pass.idleTimedOut then
            pass.fails "" ("Node '" ++ nodeId ++ "': timed out (no output for " ++
              settings.idleTimeoutMinutes ++
              " min) before producing the required structured output.")
              pass.accumulatedCost false
          else
            pass.fails "" ("Node '" ++ nodeId ++ "': output_format declared but the provider " ++
              "returned no schema-valid structured output. The model likely replied with " ++
              "prose, refused, or emitted unparseable JSON.") pass.accumulatedCost false

def reaskLoop (settings : AiSettings) (nodeId : String) (resumeSession : Option String) :
    Nat → Nat → String → StreamPass → AiExecution
  | 0, attempt, prompt, before =>
      let made := exchange settings nodeId resumeSession attempt prompt before
      (finishPass settings nodeId made.pass).after made
  | remaining + 1, attempt, prompt, before =>
      let made := exchange settings nodeId resumeSession attempt prompt before
      match reaskErrors settings made.pass with
      | some errors =>
          (reaskLoop settings nodeId resumeSession remaining (attempt + 1)
            (buildReaskPrompt prompt errors) made.pass).after made
      | none => (finishPass settings nodeId made.pass).after made

/-! ## The node -/

/-- The name of a node for its users. A prompt is cut after fifty bytes, which panics
inside a character. -/
def nodeDisplayName : DagNode → Option String
  | .command node => some node.command
  | .prompt node =>
      if 50 < byteLength node.prompt.toList then
        (takeBytes 50 node.prompt.toList).map String.ofList
      else some node.prompt
  | node => some ("node-" ++ node.id)

def nodeCommand : DagNode → Option String
  | .command node => some node.command
  | _ => none

def startedPass (started : AiEvent) : StreamPass where
  events := [started]

variable (environment : NodeEnvironment)

def firstPrompt (node : DagNode) (provider : String) (nodeOutputs : NodeOutputs) :
    Except (String × Bool) String :=
  match environment.rawPrompt node with
  | .error error => .error (error, (nodeCommand node).isSome)
  | .ok prompt =>
      match buildPromptWithContext environment.workflowVariables prompt with
      | .error error => .error (error.message, false)
      | .ok substituted =>
          if environment.isRegistered provider then
            .ok (environment.substitutePlain nodeOutputs substituted)
          else
            .error ("Node '" ++ node.id ++ "': cannot get capabilities for provider '" ++
              provider ++ "'", false)

def executeNodeInternal (settings : AiSettings) (node : DagNode) (provider : String)
    (nodeOutputs : NodeOutputs) (resumeSession : Option String) : AiExecution :=
  let started : AiEvent := .nodeStarted (nodeCommand node) provider
  match nodeDisplayName node with
  | none => { result := none, events := [started] }
  | some _ =>
      match firstPrompt environment node provider nodeOutputs with
      | .error (error, written) => (startedPass started).fails "" error none written
      | .ok prompt =>
          reaskLoop settings node.id resumeSession (maxReasks settings) 0 prompt
            (startedPass started)

section

variable (settings : AiSettings) (node : DagNode) (provider : String) (nodeOutputs : NodeOutputs)
  (resumeSession : Option String)

def executedQueries : List Query :=
  (executeNodeInternal environment settings node provider nodeOutputs
    resumeSession).exchanges.map Exchange.query

def executedStreams : List ProviderStream :=
  (executeNodeInternal environment settings node provider nodeOutputs
    resumeSession).exchanges.map Exchange.stream

def executedPasses : List StreamPass :=
  (executeNodeInternal environment settings node provider nodeOutputs
    resumeSession).exchanges.map Exchange.pass

variable {environment settings node provider nodeOutputs resumeSession}

/-- A node that is queried runs the loop; any other node asks nothing and fails, or panics. -/
theorem executeNodeInternal_cases :
    (∃ prompt, executeNodeInternal environment settings node provider nodeOutputs resumeSession =
        reaskLoop settings node.id resumeSession (maxReasks settings) 0 prompt
          (startedPass (.nodeStarted (nodeCommand node) provider))) ∨
      ((executeNodeInternal environment settings node provider nodeOutputs
          resumeSession).exchanges = [] ∧
        ∀ result, (executeNodeInternal environment settings node provider nodeOutputs
          resumeSession).result = some result → result.output.state = .failed) := by
  rw [executeNodeInternal]
  cases nodeDisplayName node with
  | none => exact .inr ⟨rfl, nofun⟩
  | some name =>
      cases firstPrompt environment node provider nodeOutputs with
      | error failure =>
          refine .inr ⟨rfl, ?_⟩
          intro result returned
          cases returned
          rfl
      | ok prompt => exact .inl ⟨prompt, rfl⟩

end

/-! ## What a stream keeps -/

section Stream

variable {settings : AiSettings} {nodeId : String}

structure Kept (before after : StreamPass) : Prop where
  accumulatedCost : after.accumulatedCost = before.accumulatedCost
  terminal : after.events.filter AiEvent.isTerminal = before.events.filter AiEvent.isTerminal
  aborted : after.streamError.isSome = true → after.aborted = before.aborted

theorem terminal_toolCompleted (pass : StreamPass) :
    pass.toolCompleted.events.filter AiEvent.isTerminal =
      pass.events.filter AiEvent.isTerminal := by
  rw [StreamPass.toolCompleted, List.filter_append]
  cases pass.lastTool with
  | none => exact List.append_nil _
  | some tool => exact List.append_nil _

theorem Kept.of_unfailed {after : StreamPass} (unfailed : after.streamError = none)
    (accumulatedCost : after.accumulatedCost = before.accumulatedCost)
    (events : after.events = before.events) : Kept before after := by
  refine ⟨accumulatedCost, by rw [events], ?_⟩
  intro failed
  rw [unfailed] at failed
  cases failed

theorem streamLoop_kept (staysSilent : Bool) (arrivals : List Arrival) (start : StreamPass)
    (running : start.streamError = none) :
    Kept start (streamLoop settings nodeId staysSilent arrivals start) := by
  induction arrivals generalizing start with
  | nil =>
      rw [streamLoop]
      split
      · exact .of_unfailed running rfl rfl
      · exact .of_unfailed running rfl rfl
  | cons arrival arrivals induction =>
      rw [streamLoop]
      split
      · exact .of_unfailed running rfl rfl
      · cases arrival.chunk with
        | assistant content =>
            have later :=
              induction { start with outputText := start.outputText ++ content } running
            exact ⟨later.accumulatedCost, later.terminal, later.aborted⟩
        | tool toolName toolInput =>
            have later := induction (start.tool toolName toolInput) running
            refine ⟨later.accumulatedCost, later.terminal.trans ?_, later.aborted⟩
            rw [StreamPass.tool, List.filter_append, terminal_toolCompleted]
            exact List.append_nil _
        | result chunk => exact ⟨rfl, terminal_toolCompleted start, fun _ => rfl⟩
        | unused => exact induction start running

theorem runStreamPass_kept (stream : ProviderStream) (before : StreamPass) :
    (runStreamPass settings nodeId stream before).accumulatedCost =
        (if (runStreamPass settings nodeId stream before).streamError.isSome then
          before.accumulatedCost
        else
          match (runStreamPass settings nodeId stream before).passCost with
          | some cost => some (before.accumulatedCost.getD F64.zero + cost)
          | none => before.accumulatedCost) ∧
      (runStreamPass settings nodeId stream before).events.filter AiEvent.isTerminal =
        before.events.filter AiEvent.isTerminal ∧
      ((runStreamPass settings nodeId stream before).streamError.isSome = true →
        (runStreamPass settings nodeId stream before).aborted = before.aborted) := by
  have kept := @streamLoop_kept settings nodeId stream.staysSilent stream.arrivals
    before.restarted rfl
  rw [runStreamPass]
  generalize streamLoop settings nodeId stream.staysSilent stream.arrivals before.restarted =
    pass at kept
  have cost : pass.accumulatedCost = before.accumulatedCost := kept.accumulatedCost
  split
  next amount unfailed reported =>
    refine ⟨?_, kept.terminal, ?_⟩
    · simp only [unfailed, reported, cost]
      rfl
    · exact kept.aborted
  next other =>
    refine ⟨?_, kept.terminal, kept.aborted⟩
    cases failed : pass.streamError with
    | some error => exact cost
    | none =>
        cases reported : pass.passCost with
        | none => exact cost
        | some amount => exact absurd reported (other amount failed)

theorem runStreamPass_eq (stream : ProviderStream) (before : StreamPass) :
    ∃ cost, runStreamPass settings nodeId stream before =
      { streamLoop settings nodeId stream.staysSilent stream.arrivals before.restarted with
        accumulatedCost := cost } := by
  rw [runStreamPass]
  dsimp only
  split
  · exact ⟨_, rfl⟩
  · exact ⟨_, rfl⟩

def reportedCost : List Arrival → Option F64
  | [] => none
  | arrival :: arrivals =>
      if stops arrival.status then none
      else
        match arrival.chunk with
        | .result chunk => chunk.cost
        | _ => reportedCost arrivals

theorem passCost_streamLoop {pass : StreamPass} (staysSilent : Bool) (arrivals : List Arrival)
    (unreported : pass.passCost = none) :
    (streamLoop settings nodeId staysSilent arrivals pass).passCost = reportedCost arrivals := by
  induction arrivals generalizing pass with
  | nil =>
      rw [streamLoop, reportedCost]
      split
      · exact unreported
      · exact unreported
  | cons arrival arrivals induction =>
      rw [streamLoop, reportedCost]
      split
      · exact unreported
      · cases arrival.chunk with
        | assistant content => exact induction unreported
        | tool toolName toolInput => exact induction unreported
        | result chunk =>
            change chunk.cost.or pass.passCost = chunk.cost
            rw [unreported, Option.or_none]
        | unused => exact induction unreported

theorem passCost_runStreamPass (stream : ProviderStream) (before : StreamPass) :
    (runStreamPass settings nodeId stream before).passCost = reportedCost stream.arrivals := by
  rcases @runStreamPass_eq settings nodeId stream before with ⟨cost, pass⟩
  rw [pass]
  exact passCost_streamLoop stream.staysSilent stream.arrivals rfl

end Stream

/-! ## The sum of the costs -/

def totalCost (reported : List (Option F64)) : Option F64 :=
  match reported.filterMap id with
  | [] => none
  | costs => some (costs.foldl (· + ·) F64.zero)

theorem totalCost_append_none (reported : List (Option F64)) :
    totalCost (reported ++ [none]) = totalCost reported := by
  simp [totalCost]

theorem totalCost_append_some (reported : List (Option F64)) (cost : F64) :
    totalCost (reported ++ [some cost]) =
      some ((totalCost reported).getD F64.zero + cost) := by
  rw [totalCost, totalCost, List.filterMap_append]
  cases costs : reported.filterMap id with
  | nil => rfl
  | cons first rest => simp

theorem totalCost_eq_none {reported : List (Option F64)} :
    totalCost reported = none ↔ ∀ cost ∈ reported, cost = none := by
  induction reported using List.reverseRecOn with
  | nil => exact iff_of_true rfl nofun
  | append_singleton reported last induction =>
      cases last with
      | none => simp [totalCost_append_none, induction, or_imp]
      | some cost => simp [totalCost_append_some, or_imp, forall_and]

def AddsNothing (earlier : List (Option F64)) : Option F64 → Prop
  | none => ∀ cost ∈ earlier, cost = none
  | some cost => (totalCost earlier).getD F64.zero + cost = cost

theorem addsNothing_iff {earlier : List (Option F64)} {last : Option F64} :
    last = totalCost (earlier ++ [last]) ↔ AddsNothing earlier last := by
  cases last with
  | none =>
      rw [totalCost_append_none, AddsNothing, ← totalCost_eq_none]
      exact eq_comm
  | some cost =>
      rw [totalCost_append_some, AddsNothing, Option.some.injEq]
      exact eq_comm

/-! ## The last stream -/

section Reask

variable {settings : AiSettings} {nodeId : String} {resumeSession : Option String}

theorem exchanges_completeNode (pass : StreamPass) (outputText : String) :
    (completeNode settings nodeId pass outputText).exchanges = [] := by
  rw [completeNode]
  split
  · rfl
  · split
    · rfl
    · split
      · rfl
      · rfl

theorem exchanges_finishPass (pass : StreamPass) :
    (finishPass settings nodeId pass).exchanges = [] := by
  rw [finishPass]
  split
  · split
    · rfl
    · rfl
  · split
    · exact exchanges_completeNode pass _
    · split
      · split
        · exact exchanges_completeNode pass _
        · rfl
      · rfl
    · split
      · rfl
      · rfl

theorem reaskLoop_exchanges {motive : Exchange → Prop}
    (each : ∀ attempt prompt before,
      motive (exchange settings nodeId resumeSession attempt prompt before))
    (remaining attempt : Nat) (prompt : String) (before : StreamPass) :
    ∀ made ∈ (reaskLoop settings nodeId resumeSession remaining attempt prompt before).exchanges,
      motive made := by
  induction remaining generalizing attempt prompt before with
  | zero =>
      rw [reaskLoop, AiExecution.exchanges_after, exchanges_finishPass, List.forall_mem_singleton]
      exact each attempt prompt before
  | succ remaining induction =>
      rw [reaskLoop]
      split
      · rw [AiExecution.exchanges_after, List.forall_mem_cons]
        exact ⟨each attempt prompt before, induction _ _ _⟩
      · rw [AiExecution.exchanges_after, exchanges_finishPass, List.forall_mem_singleton]
        exact each attempt prompt before

theorem length_exchanges_reaskLoop (remaining attempt : Nat) (prompt : String)
    (before : StreamPass) :
    (reaskLoop settings nodeId resumeSession remaining attempt prompt before).exchanges.length ≤
      1 + remaining := by
  induction remaining generalizing attempt prompt before with
  | zero =>
      rw [reaskLoop, AiExecution.exchanges_after, exchanges_finishPass]
      exact le_refl _
  | succ remaining induction =>
      rw [reaskLoop]
      split
      · rw [AiExecution.exchanges_after, List.length_cons, ← Nat.add_assoc]
        exact Nat.succ_le_succ (induction _ _ _)
      · rw [AiExecution.exchanges_after, exchanges_finishPass, List.length_singleton]
        exact Nat.le_add_right _ _

theorem prompts_reaskLoop (remaining attempt : Nat) (prompt : String) (before : StreamPass) :
    ∃ later,
      (reaskLoop settings nodeId resumeSession remaining attempt prompt before).exchanges.map
          (fun made => made.query.prompt) = prompt :: later ∧
      ∀ again ∈ later, ∃ corrections : List (List String), corrections.length ≤ remaining ∧
        again = corrections.foldl buildReaskPrompt prompt := by
  induction remaining generalizing attempt prompt before with
  | zero =>
      rw [reaskLoop, AiExecution.exchanges_after, exchanges_finishPass]
      exact ⟨[], rfl, List.forall_mem_nil _⟩
  | succ remaining induction =>
      rw [reaskLoop]
      split
      · next errors _ =>
          rcases induction (attempt + 1) (buildReaskPrompt prompt errors)
            (exchange settings nodeId resumeSession attempt prompt before).pass with
            ⟨later, prompts, corrected⟩
          refine ⟨buildReaskPrompt prompt errors :: later, ?_, ?_⟩
          · rw [AiExecution.exchanges_after, List.map_cons, prompts]
            rfl
          · rw [List.forall_mem_cons]
            refine ⟨⟨[errors], Nat.succ_le_succ (Nat.zero_le _), rfl⟩, ?_⟩
            intro again member
            rcases corrected again member with ⟨corrections, bound, same⟩
            exact ⟨errors :: corrections, Nat.succ_le_succ bound, same⟩
      · rw [AiExecution.exchanges_after, exchanges_finishPass]
        exact ⟨[], rfl, List.forall_mem_nil _⟩

structure EndsAfter (settings : AiSettings) (nodeId : String) (reported : List (Option F64))
    (earlier : List StreamPass) (last : StreamPass) (execution : AiExecution) : Prop where
  passes : execution.exchanges.map Exchange.pass = earlier ++ [last]
  result : execution.result = (finishPass settings nodeId last).result
  events : execution.events = (finishPass settings nodeId last).events
  quiet : last.events.filter AiEvent.isTerminal = []
  unaborted : last.streamError.isSome = true → last.aborted = false
  cost : last.accumulatedCost =
    if last.streamError.isSome then totalCost (reported ++ earlier.map StreamPass.passCost)
    else totalCost (reported ++ (earlier ++ [last]).map StreamPass.passCost)

theorem endsAfter_exchange (attempt : Nat) (prompt : String) {before : StreamPass}
    {reported : List (Option F64)} (quiet : before.events.filter AiEvent.isTerminal = [])
    (unaborted : before.aborted = false) (cost : before.accumulatedCost = totalCost reported) :
    let made := exchange settings nodeId resumeSession attempt prompt before
    EndsAfter settings nodeId reported [] made.pass
      ((finishPass settings nodeId made.pass).after made) := by
  intro made
  rcases @runStreamPass_kept settings nodeId made.stream before with ⟨added, terminal, aborted⟩
  refine ⟨?_, rfl, rfl, terminal.trans quiet, fun failed => (aborted failed).trans unaborted, ?_⟩
  · rw [AiExecution.exchanges_after, exchanges_finishPass]
    rfl
  · change (runStreamPass settings nodeId made.stream before).accumulatedCost = _
    rw [added, cost]
    change (if made.pass.streamError.isSome then totalCost reported
      else match made.pass.passCost with
        | some amount => some ((totalCost reported).getD F64.zero + amount)
        | none => totalCost reported) = _
    split
    · simp
    · cases reportedCost : made.pass.passCost with
      | none => simp [reportedCost, totalCost_append_none]
      | some amount => simp [reportedCost, totalCost_append_some]

theorem reaskLoop_endsAfter (remaining attempt : Nat) (prompt : String) (before : StreamPass)
    (reported : List (Option F64)) (quiet : before.events.filter AiEvent.isTerminal = [])
    (unaborted : before.aborted = false) (cost : before.accumulatedCost = totalCost reported) :
    ∃ earlier last, EndsAfter settings nodeId reported earlier last
      (reaskLoop settings nodeId resumeSession remaining attempt prompt before) := by
  induction remaining generalizing attempt prompt before reported with
  | zero =>
      rw [reaskLoop]
      exact ⟨[], _, endsAfter_exchange attempt prompt quiet unaborted cost⟩
  | succ remaining induction =>
      rw [reaskLoop]
      have one := @endsAfter_exchange settings nodeId resumeSession attempt prompt _ _ quiet
        unaborted cost
      dsimp only at one ⊢
      generalize exchange settings nodeId resumeSession attempt prompt before = made at one ⊢
      cases asked : reaskErrors settings made.pass with
      | none => exact ⟨[], made.pass, one⟩
      | some errors =>
          rw [reaskErrors] at asked
          split at asked
          next => cases asked
          next goesOn =>
            simp only [Bool.or_eq_true, not_or, Bool.not_eq_true] at goesOn
            have added := one.cost
            rw [goesOn.1.1, if_neg Bool.false_ne_true] at added
            rcases induction (attempt + 1) (buildReaskPrompt prompt errors) made.pass
                (reported ++ [made.pass.passCost]) one.quiet goesOn.2 added with
              ⟨earlier, last, ends⟩
            refine ⟨made.pass :: earlier, last, ?_, ends.result, ends.events, ends.quiet,
              ends.unaborted, ?_⟩
            · rw [AiExecution.exchanges_after, List.map_cons, ends.passes]
              rfl
            · rw [ends.cost]
              simp

/-- The costs that a node adds up are those in the results of its streams. -/
theorem passCost_executedPasses (environment : NodeEnvironment) (settings : AiSettings)
    (node : DagNode) (provider : String) (nodeOutputs : NodeOutputs)
    (resumeSession : Option String) :
    (executedPasses environment settings node provider nodeOutputs resumeSession).map
        StreamPass.passCost =
      (executedStreams environment settings node provider nodeOutputs resumeSession).map
        fun stream => reportedCost stream.arrivals := by
  rw [executedPasses, executedStreams, List.map_map, List.map_map, List.map_inj_left]
  rcases @executeNodeInternal_cases environment settings node provider nodeOutputs resumeSession
    with ⟨prompt, queried⟩ | ⟨unasked, -⟩
  · rw [queried]
    exact reaskLoop_exchanges (fun _ _ _ => passCost_runStreamPass _ _) _ _ _ _
  · rw [unasked]
    exact List.forall_mem_nil _

/-! ## The two ends -/

theorem finishPass_cost (settings : AiSettings) (nodeId : String) (pass : StreamPass) :
    ∃ result, (finishPass settings nodeId pass).result = some result ∧
      result.cost = if pass.streamError.isSome then pass.passCost else pass.accumulatedCost := by
  have completes (outputText : String) :
      ∃ result, (completeNode settings nodeId pass outputText).result = some result ∧
        result.cost = pass.accumulatedCost := by
    rw [completeNode]
    split
    · exact ⟨_, rfl, rfl⟩
    · split
      · exact ⟨_, rfl, rfl⟩
      · split
        · exact ⟨_, rfl, rfl⟩
        · exact ⟨_, rfl, rfl⟩
  rw [finishPass]
  cases pass.streamError with
  | some error =>
      dsimp only
      split
      · exact ⟨_, rfl, rfl⟩
      · exact ⟨_, rfl, rfl⟩
  | none =>
      cases settings.outputFormat with
      | none => exact completes _
      | some schema =>
          cases pass.structuredOutput with
          | none =>
              dsimp only
              split
              · exact ⟨_, rfl, rfl⟩
              · exact ⟨_, rfl, rfl⟩
          | some output =>
              dsimp only
              split
              · split
                · exact completes _
                · exact ⟨_, rfl, rfl⟩
              · exact ⟨_, rfl, rfl⟩

/-- One terminal event is written, which says whether the node is completed. -/
def ReportsOnce (execution : AiExecution) : Prop :=
  ∃ event, execution.events.filter AiEvent.isTerminal = [event] ∧
    (event.isCompleted = true ↔
      ∃ result, execution.result = some result ∧ result.output.state = .completed)

theorem reportsOnce_congr {execution : AiExecution} (result : execution.result = other.result)
    (events : execution.events = other.events) : ReportsOnce execution ↔ ReportsOnce other := by
  rw [ReportsOnce, ReportsOnce, result, events]

def Delivers (settings : AiSettings) (pass : StreamPass) : Prop :=
  ∀ schema, settings.outputFormat = some schema →
    ∃ output text, pass.structuredOutput = some output ∧
      settings.validateStructuredOutput output (.object schema) = .valid ∧
      outputTextOf settings output = .ok text

variable {pass : StreamPass}

theorem reportsOnce_fails (quiet : pass.events.filter AiEvent.isTerminal = [])
    (output error : String) (cost : Option F64) (written : Bool) :
    ReportsOnce (pass.fails output error cost written) ↔ written = true := by
  rw [ReportsOnce, StreamPass.fails]
  simp only [List.filter_append, quiet, List.nil_append]
  cases written with
  | false =>
      refine iff_of_false ?_ Bool.false_ne_true
      intro reported
      rcases reported with ⟨event, lacking, -⟩
      cases lacking
  | true =>
      refine iff_of_true ⟨.nodeFailed error, rfl, ?_⟩ rfl
      refine iff_of_false Bool.false_ne_true ?_
      intro completed
      rcases completed with ⟨result, returned, state⟩
      cases returned
      cases state

theorem reportsOnce_completeNode (quiet : pass.events.filter AiEvent.isTerminal = [])
    (outputText : String) : ReportsOnce (completeNode settings nodeId pass outputText) := by
  rw [completeNode]
  split
  · exact (reportsOnce_fails quiet _ _ _ _).mpr rfl
  · split
    · exact (reportsOnce_fails quiet _ _ _ _).mpr rfl
    · split
      · exact (reportsOnce_fails quiet _ _ _ _).mpr rfl
      · refine ⟨.nodeCompleted outputText pass.accumulatedCost pass.stopReason pass.numTurns
          pass.modelUsage, ?_, iff_of_true rfl ⟨_, rfl, rfl⟩⟩
        rw [List.filter_append, quiet]
        rfl

theorem finishPass_reportsOnce_iff (quiet : pass.events.filter AiEvent.isTerminal = [])
    (unaborted : pass.streamError.isSome = true → pass.aborted = false) :
    ReportsOnce (finishPass settings nodeId pass) ↔
      pass.streamError.isSome = true ∨ Delivers settings pass := by
  rw [finishPass, Delivers]
  cases failed : pass.streamError with
  | some error =>
      rw [failed] at unaborted
      have running : ¬((pass.aborted && !pass.idleTimedOut) = true) := by
        rw [unaborted rfl]
        exact Bool.false_ne_true
      dsimp only
      rw [if_neg running]
      exact iff_of_true ((reportsOnce_fails quiet _ _ _ _).mpr rfl) (.inl rfl)
  | none =>
      have unfailed : ¬(none : Option String).isSome = true := Bool.false_ne_true
      rw [or_iff_right unfailed]
      cases settings.outputFormat with
      | none => exact iff_of_true (reportsOnce_completeNode quiet _) nofun
      | some schema =>
          simp only [Option.some.injEq, forall_eq']
          cases pass.structuredOutput with
          | none =>
              refine iff_of_false ?_ nofun
              dsimp only
              split
              · exact (reportsOnce_fails quiet _ _ _ _).not.mpr Bool.false_ne_true
              · exact (reportsOnce_fails quiet _ _ _ _).not.mpr Bool.false_ne_true
          | some output =>
              simp only [Option.some.injEq, exists_and_left, exists_eq_left']
              cases validated : settings.validateStructuredOutput output (.object schema) with
              | invalid errors =>
                  refine iff_of_false ?_ nofun
                  exact (reportsOnce_fails quiet _ _ _ _).not.mpr Bool.false_ne_true
              | valid =>
                  cases written : outputTextOf settings output with
                  | error error =>
                      refine iff_of_false ?_ nofun
                      exact (reportsOnce_fails quiet _ _ _ _).not.mpr Bool.false_ne_true
                  | ok text =>
                      exact iff_of_true (reportsOnce_completeNode quiet _) ⟨rfl, text, rfl⟩

end Reask

end AiNode

open AiNode

/-- The returned cost is the sum of the costs of all streams exactly when the last
one did not fail, or adds nothing to the others. -/
theorem executeNodeInternal_cost_iff (environment : NodeEnvironment) (settings : AiSettings)
    (node : DagNode) (provider : String) (nodeOutputs : NodeOutputs)
    (resumeSession : Option String) :
    (∀ result, (executeNodeInternal environment settings node provider nodeOutputs
        resumeSession).result = some result →
      result.cost = totalCost ((executedPasses environment settings node provider nodeOutputs
        resumeSession).map StreamPass.passCost)) ↔
      ∀ earlier last, executedPasses environment settings node provider nodeOutputs
          resumeSession = earlier ++ [last] →
        last.streamError.isSome = true →
        AddsNothing (earlier.map StreamPass.passCost) last.passCost := by
  rw [executedPasses, executeNodeInternal]
  cases nodeDisplayName node with
  | none => exact iff_of_true nofun (fun earlier last absent => by simp at absent)
  | some name =>
      cases firstPrompt environment node provider nodeOutputs with
      | error failure =>
          refine iff_of_true ?_ (fun earlier last absent => ?_)
          · intro result returned
            cases returned
            rfl
          · simp [StreamPass.fails] at absent
      | ok prompt =>
          dsimp only
          rcases @reaskLoop_endsAfter settings node.id resumeSession (maxReasks settings) 0 prompt
              (startedPass (.nodeStarted (nodeCommand node) provider)) [] rfl rfl rfl with
            ⟨earlier, last, ends⟩
          rcases finishPass_cost settings node.id last with ⟨result, returned, cost⟩
          rw [ends.result, returned, ends.passes]
          have kept : result.cost =
              totalCost ((earlier ++ [last]).map StreamPass.passCost) ↔
              (last.streamError.isSome = true →
                AddsNothing (earlier.map StreamPass.passCost) last.passCost) := by
            rw [cost, List.map_append, List.map_singleton]
            by_cases failed : last.streamError.isSome = true
            · rw [if_pos failed, addsNothing_iff]
              exact ⟨fun adds _ => adds, fun adds => adds failed⟩
            · have added := ends.cost
              rw [if_neg failed, List.nil_append, List.map_append, List.map_singleton] at added
              rw [if_neg failed, added]
              exact iff_of_true rfl fun failed' => absurd failed' failed
          constructor
          · intro always earlier' last' same
            rcases List.append_inj' same rfl with ⟨rfl, single⟩
            cases single
            exact kept.mp (always result rfl)
          · intro condition other same
            cases same
            exact kept.mpr (condition earlier last rfl)

namespace AiNode

def queriedEnvironment : NodeEnvironment :=
  { NodeEnvironment.quietEnvironment with isRegistered := fun _ => true }

def promptNode : DagNode :=
  .prompt { base := { id := "p", dependsOn := [] }, prompt := "Summarize" }

def oneDollar : F64 := ⟨0x3ff0000000000000⟩

def twoDollars : F64 := ⟨0x4000000000000000⟩

/-- A provider that first answers with the wrong structure, and then fails. Each of
the two streams costs one dollar. -/
def failingSettings : AiSettings where
  tables := CompletionTags.asciiTables
  structuredOutput := .bestEffort
  outputFormat := some []
  maxBudgetUsd := none
  idleTimeoutMinutes := "30"
  sendQuery := fun attempt _ _ =>
    { arrivals :=
        [{ chunk := .result
            (if attempt = 0 then
              { structuredOutput := some .null, cost := some oneDollar }
            else
              { isError := some true, errorSubtype := some "error_during_execution",
                cost := some oneDollar }) }] }
  validateStructuredOutput := fun _ _ => .invalid ["(root): null is not of type \"object\""]
  serialize := fun _ => .ok "null"

end AiNode

theorem executeNodeInternal_cost_lost :
    (executeNodeInternal queriedEnvironment failingSettings promptNode "pi" ∅ none).result.map
        NodeResult.cost = some (some oneDollar) ∧
      totalCost ((executedPasses queriedEnvironment failingSettings promptNode "pi" ∅ none).map
        StreamPass.passCost) = some twoDollars ∧
      ¬∀ result, (executeNodeInternal queriedEnvironment failingSettings promptNode "pi" ∅
          none).result = some result →
        result.cost = totalCost ((executedPasses queriedEnvironment failingSettings promptNode
          "pi" ∅ none).map StreamPass.passCost) := by
  have returned : (executeNodeInternal queriedEnvironment failingSettings promptNode "pi" ∅
      none).result.map NodeResult.cost = some (some oneDollar) := by
    decide +kernel
  have total : totalCost ((executedPasses queriedEnvironment failingSettings promptNode "pi" ∅
      none).map StreamPass.passCost) = some twoDollars := by
    decide +kernel
  refine ⟨returned, total, ?_⟩
  intro always
  rcases Option.map_eq_some_iff.mp returned with ⟨result, found, cost⟩
  have same := always result found
  rw [cost, total] at same
  exact absurd same (by decide)

namespace AiNode

theorem firstPrompt_written {environment : NodeEnvironment} {node : DagNode} {provider : String}
    {nodeOutputs : NodeOutputs} :
    (∀ prompt, firstPrompt environment node provider nodeOutputs = .ok prompt →
      ¬∃ command error, node = .command command ∧
        environment.loadCommandPrompt command.command = .error error) ∧
    ∀ failure, firstPrompt environment node provider nodeOutputs = .error failure →
      (failure.2 = true ↔ ∃ command error, node = .command command ∧
        environment.loadCommandPrompt command.command = .error error) := by
  have unloaded : (∃ command error, node = .command command ∧
      environment.loadCommandPrompt command.command = .error error) ↔
      (nodeCommand node).isSome = true ∧ ∃ error, environment.rawPrompt node = .error error := by
    constructor
    · intro missing
      rcases missing with ⟨command, error, rfl, failed⟩
      exact ⟨rfl, error, failed⟩
    · intro missing
      rcases missing with ⟨isCommand, error, failed⟩
      cases node with
      | command command => exact ⟨command, error, rfl, failed⟩
      | prompt | bash | script | loop | approval | cancel => cases isCommand
  rw [unloaded, firstPrompt]
  cases raw : environment.rawPrompt node with
  | error error =>
      refine ⟨nofun, ?_⟩
      intro failure failed
      cases failed
      exact ⟨fun written => ⟨written, error, rfl⟩, fun missing => missing.1⟩
  | ok prompt =>
      have loaded : ¬((nodeCommand node).isSome = true ∧
          ∃ error, (Except.ok prompt : Except String String) = .error error) := by
        intro missing
        rcases missing.2 with ⟨error, impossible⟩
        cases impossible
      refine ⟨fun _ _ => loaded, ?_⟩
      intro failure failed
      refine iff_of_false ?_ loaded
      dsimp only at failed
      split at failed
      · cases failed
        exact Bool.false_ne_true
      · split at failed
        · cases failed
        · cases failed
          exact Bool.false_ne_true

end AiNode

namespace AiNode

/-- A provider that answers a node with a declared structure in prose. -/
def proseSettings : AiSettings :=
  { failingSettings with
    structuredOutput := .enforced
    sendQuery := fun _ _ _ => { arrivals := [{ chunk := .assistant "All done." }] } }

end AiNode

end HarnessAgent
