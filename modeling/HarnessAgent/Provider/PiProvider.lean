import HarnessAgent.Foundation.TextScan
import HarnessAgent.Provider.MessageChunk

/-! # The Pi provider

A query starts the Pi CLI, asks it for its state, sends the prompt and maps the
events that come back, line by line, until the agent ends.
-/

namespace HarnessAgent

namespace Pi

open Provider

/-! ## Events -/

structure PiUsage where
  input : Nat
  output : Nat
  totalTokens : Nat
  costTotal : F64

structure PiAssistantMessage where
  usage : PiUsage
  stopReason : Option String
  errorMessage : Option String
  textBlocks : List String

inductive PiEvent
  | textDelta (delta : String)
  | thinkingDelta (delta : String)
  | messageUpdateOther
  | toolExecutionStart (toolName : String) (args : Value) (toolCallId : String)
  | toolExecutionEnd (toolName : String) (result : Value) (toolCallId : String) (isError : Bool)
  | agentEnd (lastAssistant : Option PiAssistantMessage)
  | autoRetryStart (attempt maxAttempts : Nat) (errorMessage : String)
  | turnStart
  | other

/-- A count, cast to 32 bits; it defaults to zero. -/
def getU32 (value : Value) (key : String) : Nat :=
  (((value.get key).bind Value.asU64).getD 0) % 2 ^ 32

def textBlock (block : Value) : Option String :=
  if block.getStr "type" = some "text" then block.getStr "text" else none

def parsePiAssistantMessage (event : Value) : Option PiAssistantMessage := do
  let messages ← event.getArray "messages"
  let last ← messages.reverse.find? fun message => message.getStr "role" = some "assistant"
  let usage ← last.get "usage"
  pure {
    usage := {
      input := getU32 usage "input"
      output := getU32 usage "output"
      totalTokens := getU32 usage "totalTokens"
      costTotal :=
        (((usage.get "cost").bind fun cost => cost.get "total").bind Value.asF64).getD F64.zero }
    stopReason := last.getStr "stopReason"
    errorMessage := last.getStr "errorMessage"
    textBlocks := ((last.getArray "content").getD []).filterMap textBlock }

def parsePiEventJson (event : Value) : Option PiEvent := do
  let eventType ← event.getStr "type"
  match eventType with
  | "message_update" =>
      let update ← event.get "assistantMessageEvent"
      let subType ← update.getStr "type"
      match subType with
      | "text_delta" => pure (.textDelta ((update.getStr "delta").getD ""))
      | "thinking_delta" => pure (.thinkingDelta ((update.getStr "delta").getD ""))
      | _ => pure .messageUpdateOther
  | "tool_execution_start" =>
      pure (.toolExecutionStart ((event.getStr "toolName").getD "")
        ((event.get "args").getD (.object [])) ((event.getStr "toolCallId").getD ""))
  | "tool_execution_end" =>
      pure (.toolExecutionEnd ((event.getStr "toolName").getD "") (event.index "result")
        ((event.getStr "toolCallId").getD "")
        (((event.get "isError").bind Value.asBool).getD false))
  | "agent_end" => pure (.agentEnd (parsePiAssistantMessage event))
  | "auto_retry_start" =>
      pure (.autoRetryStart (getU32 event "attempt") (getU32 event "maxAttempts")
        ((event.getStr "errorMessage").getD ""))
  | "turn_start" => pure .turnStart
  | _ => pure .other

def usageToTokens (usage : PiUsage) : TokenUsage where
  input := usage.input
  output := usage.output
  total := some usage.totalTokens
  cost := some usage.costTotal

def PiAssistantMessage.failed (message : PiAssistantMessage) : Bool :=
  message.stopReason = some "error" || message.stopReason = some "aborted"

def buildResultChunk (sessionId : Option String) : Option PiAssistantMessage → ResultFields
  | none =>
      { sessionId, isError := some true, errorSubtype := some "missing_assistant_message" }
  | some last =>
      let tokens := usageToTokens last.usage
      { sessionId
        tokens := some tokens
        isError := if last.failed then some true else none
        errorSubtype := if last.failed then last.stopReason else none
        errors := if last.failed then last.errorMessage.map fun message => [message] else none
        cost := tokens.cost
        stopReason := last.stopReason }

variable (render : Value → String)

def serializeToolResult : Value → String
  | .string text => text
  | other => render other

def mapPiEvent : PiEvent → List MessageChunk
  | .textDelta delta => [.assistant delta none]
  | .thinkingDelta delta => [.thinking delta]
  | .messageUpdateOther => []
  | .toolExecutionStart toolName args toolCallId =>
      let toolInput := match args with
        | .object members => .object members
        | .array items => .array items
        | _ => .object []
      [.tool toolName (some toolInput) (some toolCallId)]
  | .toolExecutionEnd toolName result toolCallId isError =>
      (if isError then [.system ("⚠️ Tool " ++ toolName ++ " failed")] else []) ++
        [.toolResult toolName (serializeToolResult render result) (some toolCallId)]
  | .agentEnd lastAssistant => [.result (buildResultChunk none lastAssistant)]
  | .autoRetryStart attempt maxAttempts errorMessage =>
      [.system ("⚠️ retry " ++ toString attempt ++ "/" ++ toString maxAttempts ++ ": " ++
        errorMessage)]
  | .turnStart => []
  | .other => []

/-! ## Lines -/

inductive LineEffect
  | goOn (chunks : List MessageChunk) (turnText : String)
  | done (chunks : List MessageChunk)

def uiChunks (request : Value) : List MessageChunk :=
  if (request.getStr "method").getD "" = "notify" then
    let message := (request.getStr "message").getD ""
    if message = "" then [] else [.assistant message (some true)]
  else []

def streamingTail (turnText : String) : Option PiAssistantMessage → List MessageChunk
  | none => []
  | some last =>
      let finalText := (String.join last.textBlocks).toList
      if Text.byteLength finalText > Text.byteLength turnText.toList ∧
          turnText.toList.isPrefixOf finalText then
        let tail := finalText.drop turnText.length
        if tail.isEmpty then [] else [.assistant (String.ofList tail) (some true)]
      else []

def nextTurnText (turnText : String) : PiEvent → String
  | .textDelta delta => turnText ++ delta
  | .turnStart => ""
  | _ => turnText

def trimCarriageReturns (line : String) : String :=
  String.ofList (line.toList.rdropWhile (· == '\r'))

variable (fromStr : String → Option Value)

def lineValue (line : String) : Option Value :=
  let line := trimCarriageReturns line
  if line = "" then none else fromStr line

def takeLine (sessionId : Option String) (turnText line : String) : LineEffect :=
  match lineValue fromStr line with
  | none => .goOn [] turnText
  | some event =>
      match event.getStr "type" with
      | none => .goOn [] turnText
      | some eventType =>
          if eventType = "extension_ui_request" then .goOn (uiChunks event) turnText
          else if eventType = "response" then .goOn [] turnText
          else
            match parsePiEventJson event with
            | none => .goOn [] turnText
            | some (.agentEnd lastAssistant) =>
                .done (streamingTail turnText lastAssistant ++
                  [.result (buildResultChunk sessionId lastAssistant)])
            | some piEvent => .goOn (mapPiEvent render piEvent) (nextTurnText turnText piEvent)

/-! ## Sessions -/

/-- What the environment answers to the session, step by step. The lines end with the
end of the output; reading one may fail. -/
structure Session where
  spawned : Except String Unit := .ok ()
  stdinTaken : Bool := true
  stdoutTaken : Bool := true
  stateWritten : Bool := true
  promptSerialized : Except String Unit := .ok ()
  promptWritten : Bool := true
  lines : List (Except String String)
  /-- Whether the query is found cancelled before a read of the event loop. -/
  cancelledAt : Nat → Bool := fun _ => false

/-- The answer to the state request is looked for in this many reads. -/
def getStateAttempts : Nat := 20

def getStateLoop : Nat → List (Except String String) →
    Option String × List (Except String String)
  | 0, lines => (none, lines)
  | _ + 1, [] => (none, [])
  | _ + 1, .error _ :: rest => (none, rest)
  | attempts + 1, .ok line :: rest =>
      match lineValue fromStr line with
      | none => getStateLoop attempts rest
      | some answer =>
          if answer.getStr "type" = some "response" ∧
              answer.getStr "command" = some "get_state" then
            ((answer.get "data").bind fun data => data.getStr "sessionId", rest)
          else getStateLoop attempts rest

def eventLoop (session : Session) (sessionId : Option String) :
    Nat → String → List (Except String String) → List MessageChunk
  | _, _, [] => []
  | index, turnText, read :: rest =>
      if session.cancelledAt index then []
      else
        match read with
        | .error _ => []
        | .ok line =>
            match takeLine render fromStr sessionId turnText line with
            | .done chunks => chunks
            | .goOn chunks next => chunks ++ eventLoop session sessionId (index + 1) next rest

def splitWhitespace (text : String) : List String :=
  ((text.toList.splitOnP Text.isWhitespace).filter (· ≠ [])).map String.ofList

def findPiArgv (setting : Option String) : Except String (List String) :=
  match setting with
  | some value => if value = "" then .error "pi_binary_not_found" else .ok (splitWhitespace value)
  | none => .error "pi_binary_not_found"

/-- The session. An empty argument list panics, which ends the stream. -/
def runPiRpcSession (cliVariable : Option String) (session : Session) : List MessageChunk :=
  match findPiArgv cliVariable with
  | .error subtype => [errorResult subtype ["Pi CLI not found. Set PI_CODING_AGENT_CLI env var."]]
  | .ok [] => []
  | .ok (_ :: _) =>
      match session.spawned with
      | .error message =>
          [errorResult "pi_spawn_failed" ["Failed to spawn Pi CLI: " ++ message]]
      | .ok () =>
          if !session.stdinTaken then
            [errorResult "pi_stdin_unavailable" ["Pi CLI stdin not available"]]
          else if !session.stdoutTaken then
            [errorResult "pi_stdout_unavailable" ["Pi CLI stdout not available"]]
          else if !session.stateWritten then
            [errorResult "pi_write_failed" ["Failed to write get_state to Pi CLI"]]
          else
            let state := getStateLoop fromStr getStateAttempts session.lines
            match session.promptSerialized with
            | .error message =>
                [errorResult "pi_prompt_serialize_failed"
                  ["Failed to serialize prompt: " ++ message]]
            | .ok () =>
                if !session.promptWritten then
                  [errorResult "pi_write_failed" ["Failed to write prompt to Pi CLI"]]
                else eventLoop render fromStr session state.1 0 "" state.2

/-! ## Queries -/

def parsePiModelRef (raw : String) : Option (String × String) :=
  let provider := raw.toList.takeWhile (· ≠ '/')
  let modelId := (raw.toList.dropWhile (· ≠ '/')).drop 1
  let isLower (character : Char) : Bool := 'a' ≤ character && character ≤ 'z'
  if ¬ '/' ∈ raw.toList ∨ provider = [] ∨ modelId = [] then none
  else if provider.head?.all isLower && provider.all fun character =>
      isLower character || Text.isAsciiDigit character || character = '-' then
    some (String.ofList provider, String.ofList modelId)
  else none

/-- The configuration of a query, as far as its chunks depend on it, and what the
environment answers. -/
structure Query where
  shim : Except String Unit := .ok ()
  /-- The model of the node, or of the configuration. -/
  model : Option String
  /-- The warnings about settings that Pi cannot follow, and a failed resume. -/
  warnings : List String := []
  cancelledBefore : Bool := false
  cliVariable : Option String
  session : Session

def sendQuery (query : Query) : List MessageChunk :=
  match query.shim with
  | .error message => [errorResult "pi_shim_setup_failed" [message]]
  | .ok () =>
      match query.model with
      | none =>
          [errorResult "pi_model_missing"
            ["Pi provider requires a model. Set `model` on the workflow node or " ++
              "`assistants.pi.model` in .archon/config.yaml. " ++
              "Format: '<pi-provider-id>/<model-id>' (e.g. 'google/gemini-2.5-pro')."]]
      | some raw =>
          match parsePiModelRef raw with
          | none =>
              [errorResult "pi_invalid_model_ref"
                ["Invalid Pi model ref: '" ++ raw ++
                  "'. Expected format '<pi-provider-id>/<model-id>' " ++
                  "(e.g. 'google/gemini-2.5-pro')."]]
          | some _ =>
              (query.warnings.map fun warning => .system ("⚠️ " ++ warning)) ++
                if query.cancelledBefore then []
                else runPiRpcSession render fromStr query.cliVariable query.session

/-! ## The end of the agent -/

/-- What a line that ends the agent says about its last message. -/
def agentEnd? (line : String) : Option (Option PiAssistantMessage) :=
  (lineValue fromStr line).bind fun event =>
    if event.getStr "type" = some "agent_end" then some (parsePiAssistantMessage event) else none

/-- The end of the agent, if it is read before the output ends or fails. -/
def firstAgentEnd : List (Except String String) → Option (Option PiAssistantMessage)
  | [] => none
  | .error _ :: _ => none
  | .ok line :: rest => (agentEnd? fromStr line).or (firstAgentEnd rest)

def EndedWell (lastAssistant : Option PiAssistantMessage) : Prop :=
  ∃ message, lastAssistant = some message ∧ message.failed = false

variable {render fromStr}

theorem isError_buildResultChunk {sessionId : Option String}
    {lastAssistant : Option PiAssistantMessage} :
    (buildResultChunk sessionId lastAssistant).isError = some true ↔
      ¬ EndedWell lastAssistant := by
  cases lastAssistant with
  | none => simp [buildResultChunk, EndedWell]
  | some last =>
      cases failed : last.failed with
      | false => simp [buildResultChunk, EndedWell, failed]
      | true => simp [buildResultChunk, EndedWell, failed]

theorem noResult_streamingTail (turnText : String) (lastAssistant : Option PiAssistantMessage) :
    NoResult (streamingTail turnText lastAssistant) := by
  cases lastAssistant with
  | none => exact noResult_nil
  | some last =>
      simp only [streamingTail]
      split
      · split
        · exact noResult_nil
        · exact noResult_singleton rfl
      · exact noResult_nil

theorem noResult_uiChunks (request : Value) : NoResult (uiChunks request) := by
  simp only [uiChunks]
  split
  · split
    · exact noResult_nil
    · exact noResult_singleton rfl
  · exact noResult_nil

theorem noResult_mapPiEvent (running : ∀ last, event ≠ .agentEnd last) :
    NoResult (mapPiEvent render event) := by
  cases event with
  | agentEnd last => exact absurd rfl (running last)
  | toolExecutionEnd toolName result toolCallId isError =>
      apply NoResult.append
      · split
        · exact noResult_singleton rfl
        · exact noResult_nil
      · exact noResult_singleton rfl
  | textDelta delta => exact noResult_singleton rfl
  | thinkingDelta delta => exact noResult_singleton rfl
  | toolExecutionStart toolName args toolCallId => exact noResult_singleton rfl
  | autoRetryStart attempt maxAttempts message => exact noResult_singleton rfl
  | messageUpdateOther => exact noResult_nil
  | turnStart => exact noResult_nil
  | other => exact noResult_nil

theorem parsePiEventJson_agentEnd {event : Value} {last : Option PiAssistantMessage} :
    parsePiEventJson event = some (.agentEnd last) ↔
      event.getStr "type" = some "agent_end" ∧ last = parsePiAssistantMessage event := by
  cases named : event.getStr "type" with
  | none => simp [parsePiEventJson, named]
  | some eventType =>
      simp only [parsePiEventJson, named, Option.bind_eq_bind, Option.bind_some, Option.pure_def,
        Option.some.injEq]
      split
      · constructor
        · intro parsed
          obtain ⟨update, -, parsed⟩ := Option.bind_eq_some_iff.mp parsed
          obtain ⟨subType, -, parsed⟩ := Option.bind_eq_some_iff.mp parsed
          split at parsed <;> cases parsed
        · rintro ⟨other, -⟩
          exact absurd other (by decide)
      · simp
      · simp
      · simp [eq_comm]
      · simp
      · simp
      · next different _ _ =>
          constructor
          · intro parsed
            cases parsed
          · rintro ⟨named, -⟩
            exact (different named).elim

theorem takeLine_of_agentEnd {sessionId : Option String} {turnText : String}
    (ended : agentEnd? fromStr line = some last) :
    takeLine render fromStr sessionId turnText line =
      .done (streamingTail turnText last ++ [.result (buildResultChunk sessionId last)]) := by
  obtain ⟨event, value, isEnd⟩ := Option.bind_eq_some_iff.mp ended
  split at isEnd
  · next named =>
      have parsed : parsePiEventJson event = some (.agentEnd last) :=
        parsePiEventJson_agentEnd.mpr ⟨named, (Option.some.inj isEnd).symm⟩
      simp [takeLine, value, named, parsed]
  · cases isEnd

theorem takeLine_of_running (running : agentEnd? fromStr line = none) (render : Value → String)
    (sessionId : Option String) (turnText : String) :
    ∃ chunks next, takeLine render fromStr sessionId turnText line = .goOn chunks next ∧
      NoResult chunks := by
  unfold takeLine
  cases value : lineValue fromStr line with
  | none => exact ⟨[], turnText, rfl, noResult_nil⟩
  | some event =>
      cases named : event.getStr "type" with
      | none => exact ⟨[], turnText, by simp [named], noResult_nil⟩
      | some eventType =>
          simp only [named]
          split
          · exact ⟨_, _, rfl, noResult_uiChunks event⟩
          · split
            · exact ⟨_, _, rfl, noResult_nil⟩
            · split
              · exact ⟨_, _, rfl, noResult_nil⟩
              · next last parsed =>
                  have isEnd := (parsePiEventJson_agentEnd.mp parsed).1
                  simp [agentEnd?, value, isEnd] at running
              · next piEvent goesOn parsed =>
                  refine ⟨_, _, rfl, noResult_mapPiEvent ?_⟩
                  intro last ends
                  exact goesOn last ends

theorem eventLoop_endsInResult (running : ∀ index, session.cancelledAt index = false)
    (sessionId : Option String) (normal : Prop) (index : Nat) (turnText : String)
    (lines : List (Except String String)) :
    EndsInResult normal (eventLoop render fromStr session sessionId index turnText lines) ↔
      ∃ last, firstAgentEnd fromStr lines = some last ∧ (¬ normal → ¬ EndedWell last) := by
  induction lines generalizing index turnText with
  | nil => simp [eventLoop, firstAgentEnd, nil_not_endsInResult]
  | cons read rest induction =>
      simp only [eventLoop, running, Bool.false_eq_true, if_false]
      cases read with
      | error message => simp [firstAgentEnd, nil_not_endsInResult]
      | ok line =>
          cases ended : agentEnd? fromStr line with
          | some last =>
              simp only [takeLine_of_agentEnd ended, firstAgentEnd, ended, Option.some_or]
              rw [endsInResult_append_iff (noResult_streamingTail turnText last)]
              rw [endsInResult_singleton, isError_buildResultChunk]
              simp
          | none =>
              obtain ⟨chunks, next, taken, noResult⟩ :=
                takeLine_of_running ended render sessionId turnText
              simp only [taken, firstAgentEnd, ended, Option.none_or]
              rw [endsInResult_append_iff noResult]
              exact induction _ _

end Pi

end HarnessAgent
