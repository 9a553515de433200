import HarnessAgent.Foundation.Text
import HarnessAgent.Provider.MessageChunk

/-! # The OpenCode provider

A query acquires the embedded server, resolves a session on it, sends the prompt and
maps the server's events to chunks until the session is idle. The chunks of a session
are passed on only when it ends well; other ends are classified and may be retried.
-/

namespace HarnessAgent

namespace OpenCode

open Provider

/-! ## Model references and agents -/

structure ProviderModel where
  providerId : String
  modelId : String
  deriving DecidableEq

def parseModelRef (modelRef : String) : Option ProviderModel :=
  let provider := modelRef.toList.takeWhile (· ≠ '/')
  let model := (modelRef.toList.dropWhile (· ≠ '/')).drop 1
  if ¬ '/' ∈ modelRef.toList ∨ Text.trim provider = [] ∨ Text.trim model = [] then none
  else some ⟨String.ofList (Text.trim provider), String.ofList (Text.trim model)⟩

structure Agent where
  key : String
  model : Option String

/-- The prompt names the first agent; its model reference has to be valid. -/
def createSessionPromptBody (agents : List Agent) : Except String Unit :=
  match agents with
  | [] => .ok ()
  | agent :: _ =>
      match agent.model with
      | none => .ok ()
      | some modelRef =>
          if (parseModelRef modelRef).isNone then
            .error ("Invalid OpenCode agent model ref for '" ++ agent.key ++ "': '" ++ modelRef ++
              "'. Expected format '<provider>/<model>' (for example 'anthropic/claude-3-5-sonnet').")
          else .ok ()

/-! ## Errors -/

inductive RetryableErrorClass
  | rateLimit
  | auth
  | crash
  | agentNotFound
  | unknown
  | aborted
  deriving DecidableEq

def RetryableErrorClass.text : RetryableErrorClass → String
  | .rateLimit => "rate_limit"
  | .auth => "auth"
  | .crash => "crash"
  | .agentNotFound => "agent_not_found"
  | .unknown => "unknown"
  | .aborted => "aborted"

def rateLimitPatterns : List String :=
  ["rate limit", "too many requests", "429", "overloaded"]

def authPatterns : List String :=
  ["unauthorized", "authentication", "invalid token", "401", "403", "api key"]

def crashPatterns : List String :=
  ["server disconnected", "disposed", "econnreset", "socket hang up", "connection terminated",
    "process terminated"]

def agentNotFoundPatterns : List String :=
  ["agent not found", "unknown agent", "invalid agent", "no agent named"]

def classifyOpencodeError (message : String) (aborted : Bool) : RetryableErrorClass :=
  if aborted then .aborted
  else if message.mentionsAny rateLimitPatterns then .rateLimit
  else if message.mentionsAny authPatterns then .auth
  else if message.mentionsAny crashPatterns then .crash
  else if message.mentionsAny agentNotFoundPatterns then .agentNotFound
  else .unknown

def enrichOpencodeError (originalMessage : String) (errorClass : RetryableErrorClass) : String :=
  if errorClass = .aborted then "OpenCode query aborted"
  else "OpenCode " ++ errorClass.text ++ ": " ++ originalMessage

inductive RuntimeError
  | aborted
  | spawnFailed (message : String)
  | startupTimeout (milliseconds : Nat)
  | portConflict
  | processExited (message : String)
  | urlParseFailed (url : String)
  | maxRetriesExceeded

def RuntimeError.text : RuntimeError → String
  | .aborted => "OpenCode runtime startup aborted"
  | .spawnFailed message => "Failed to spawn opencode binary: " ++ message
  | .startupTimeout milliseconds =>
      "OpenCode server startup timed out after " ++ toString milliseconds ++ "ms"
  | .portConflict => "Port conflict, retry needed"
  | .processExited message => "OpenCode process exited unexpectedly: " ++ message
  | .urlParseFailed url => "Failed to parse server URL: " ++ url
  | .maxRetriesExceeded => "Max retries exceeded starting OpenCode"

/-! ## Events -/

structure SseEvent where
  eventType : String
  properties : Members

structure SessionState where
  latestAssistantInfo : Option Members := none
  lastAssistantMessageId : Option String := none
  seenToolCalls : List String := []
  completedToolCalls : List String := []

def processMessageUpdated (properties : Members) (sessionId : String) (state : SessionState) :
    SessionState :=
  match properties.getObject "info" with
  | none => state
  | some info =>
      if (info.getStr "role").getD "" = "assistant" ∧
          (info.getStr "sessionID").getD "" = sessionId then
        { state with
          latestAssistantInfo := some info
          lastAssistantMessageId := (info.getStr "id").or state.lastAssistantMessageId }
      else state

def partText (properties part : Members) : String :=
  ((properties.getStr "delta").or (part.getStr "text")).getD ""

def toolInput (toolState : Option Members) : Option Value :=
  (toolState.bind fun members => members.get "input").bind fun value => match value with
    | .object members => some (.object members)
    | .array items => some (.array items)
    | _ => none

def toolOutput (toolState : Option Members) : Option String :=
  match toolState.bind fun members => members.getStr "status" with
  | some "completed" => some ((toolState.bind fun members => members.getStr "output").getD "")
  | some "error" =>
      some ((toolState.bind fun members => members.getStr "error").getD "Tool failed")
  | _ => none

def processToolPart (part : Members) (state : SessionState) : List MessageChunk × SessionState :=
  match part.getStr "callID" with
  | none => ([], state)
  | some callId =>
      let toolName := (part.getStr "tool").getD "unknown"
      let toolState := part.getObject "state"
      let called :=
        if callId ∈ state.seenToolCalls then ([], state)
        else ([MessageChunk.tool toolName (toolInput toolState) (some callId)],
          { state with seenToolCalls := callId :: state.seenToolCalls })
      if callId ∈ state.completedToolCalls then called
      else
        match toolOutput toolState with
        | none => called
        | some output =>
            (called.1 ++ [.toolResult toolName output (some callId)],
              { called.2 with completedToolCalls := callId :: state.completedToolCalls })

def processMessagePartUpdated (properties : Members) (sessionId : String) (state : SessionState) :
    List MessageChunk × SessionState :=
  match properties.getObject "part" with
  | none => ([], state)
  | some part =>
      if (part.getStr "sessionID").getD "" ≠ sessionId then ([], state)
      else
        match part.getStr "type" with
        | some "text" =>
            let text := partText properties part
            (if text = "" then [] else [.assistant text none], state)
        | some "reasoning" =>
            let text := partText properties part
            (if text = "" then [] else [.thinking text], state)
        | some "tool" => processToolPart part state
        | _ => ([], state)

def tokenCount (tokens : Members) (key : String) : Nat :=
  (((tokens.get key).bind Value.asF64).map (F64.toUnsigned 64)).getD 0

/-- The sum of the counts wraps around, as a release build does. -/
def normalizeTokens (info : Members) : Option TokenUsage := do
  let tokens ← info.getObject "tokens"
  let input := tokenCount tokens "input"
  let output := tokenCount tokens "output"
  let total := (input + output + tokenCount tokens "reasoning") % 2 ^ 64
  pure {
    input, output
    total := if total > 0 then some total else none
    cost := (info.get "cost").bind Value.asF64 }

def modelUsage (info : Members) : Members :=
  let tokenField (key : String) : Value :=
    ((info.getObject "tokens").bind fun tokens => tokens.get key).getD .null
  [("providerID", (info.get "providerID").getD .null), ("modelID", (info.get "modelID").getD .null),
    ("reasoning", tokenField "reasoning"), ("cache", tokenField "cache")]

def buildResultChunk (sessionId : String) (info : Option Members)
    (structuredOutput : Option Value) : MessageChunk :=
  .result {
    sessionId := some sessionId
    tokens := info.bind normalizeTokens
    structuredOutput
    cost := (info.bind fun members => members.get "cost").bind Value.asF64
    stopReason := info.bind fun members => members.getStr "finish"
    modelUsage := info.map modelUsage }

variable (render : Value → String)

def errorMessageFromValue (error : Value) : String :=
  match error.getStr "message" with
  | some message => message
  | none =>
      match (error.get "data").bind fun data => data.getStr "message" with
      | some message => message
      | none => render error

def sessionErrorText (properties : Members) : String :=
  "session.error: " ++ errorMessageFromValue render
    (match properties.get "error" with
      | some (.object members) => .object members
      | _ => .object properties)

/-- An event that names another session is none of ours. -/
def otherSession (properties : Members) (sessionId : String) : Bool :=
  (properties.getStr "sessionID").any (· ≠ sessionId)

/-! ## Sessions -/

structure Attempt where
  cancelledBefore : Bool := false
  runtime : Except RuntimeError Unit := .ok ()
  getSession : Except String Value := .error ""
  createSession : Except String Value
  subscribed : Except String Unit := .ok ()
  prompted : Except String Unit := .ok ()
  /-- The events, up to the end of the stream or its first error. -/
  events : List (Except String SseEvent)
  /-- Whether the query is found cancelled before waiting for an event. -/
  cancelledAt : Nat → Bool := fun _ => false
  /-- The last message of the assistant, asked for when the session is idle. -/
  getMessage : Except String Value := .error ""
  /-- Whether the query is found cancelled when an error is classified. -/
  cancelledAfter : Bool := false

structure ResolvedSession where
  sessionId : String
  resumed : Bool

def resolveSessionId (resumeSessionId : Option String) (attempt : Attempt) :
    Except String ResolvedSession :=
  let existing := match resumeSessionId, attempt.getSession with
    | some _, .ok session => (session.getStr "id").getD ""
    | _, _ => ""
  if existing ≠ "" then .ok { sessionId := existing, resumed := true }
  else
    match attempt.createSession with
    | .error message => .error ("Failed to create session: " ++ message)
    | .ok session =>
        let sessionId := (session.getStr "id").getD ""
        if sessionId = "" then .error "Server returned empty session ID"
        else .ok { sessionId, resumed := false }

/-- The structured output of the last message. -/
def structuredOutput (attempt : Attempt) (state : SessionState) : Option Value :=
  match state.lastAssistantMessageId, attempt.getMessage with
  | some _, .ok message => (message.get "info").bind fun info => info.get "structured_output"
  | _, _ => none

def eventLoop (attempt : Attempt) (sessionId : String) :
    Nat → SessionState → List MessageChunk → List (Except String SseEvent) →
      Except String (List MessageChunk)
  | index, _, _, [] =>
      if attempt.cancelledAt index then .error "aborted"
      else .error "SSE stream ended without session.idle"
  | index, state, chunks, item :: rest =>
      if attempt.cancelledAt index then .error "aborted"
      else
        match item with
        | .error message => .error ("SSE stream error: " ++ message)
        | .ok event =>
            match event.eventType with
            | "message.updated" =>
                eventLoop attempt sessionId (index + 1)
                  (processMessageUpdated event.properties sessionId state) chunks rest
            | "message.part.updated" =>
                let (more, next) := processMessagePartUpdated event.properties sessionId state
                eventLoop attempt sessionId (index + 1) next (chunks ++ more) rest
            | "session.error" =>
                if otherSession event.properties sessionId then
                  eventLoop attempt sessionId (index + 1) state chunks rest
                else .error (sessionErrorText render event.properties)
            | "session.idle" =>
                if otherSession event.properties sessionId then
                  eventLoop attempt sessionId (index + 1) state chunks rest
                else
                  .ok (chunks ++ [buildResultChunk sessionId state.latestAssistantInfo
                    (structuredOutput attempt state)])
            | _ => eventLoop attempt sessionId (index + 1) state chunks rest

def streamOpencodeSession (attempt : Attempt) (sessionId : String) :
    Except String (List MessageChunk) :=
  match attempt.subscribed, attempt.prompted with
  | .error message, _ => .error ("SSE subscribe failed: " ++ message)
  | .ok _, .error message => .error ("prompt_async failed: " ++ message)
  | .ok _, .ok _ => eventLoop render attempt sessionId 0 {} [] attempt.events

/-! ## Queries -/

def maxRetries : Nat := 3

/-- The configuration of a query, as far as its chunks depend on it, and what the
environment answers. -/
structure Query where
  /-- The model of the node, or of the configuration. -/
  modelRef : Option String
  externalBaseUrl : Bool := false
  agents : List Agent := []
  resumeSessionId : Option String := none
  attempts : Nat → Attempt

def abortedResult (sessionId : Option String) : MessageChunk :=
  .result {
    sessionId
    isError := some true
    errorSubtype := some "aborted"
    errors := some ["OpenCode query aborted"] }

/-- Whether a session that could not be resolved is tried again. -/
def shouldRetryResolve (errorClass : RetryableErrorClass) : Bool :=
  errorClass = .rateLimit || errorClass = .crash

/-- An agent that was not found is tried once more, after the agents are written again. -/
def shouldRetryStream (query : Query) (recovered : Bool) (errorClass : RetryableErrorClass) : Bool :=
  shouldRetryResolve errorClass ||
    (errorClass = .agentNotFound && query.agents ≠ [] && !recovered)

def resumeWarning (query : Query) (resolved : ResolvedSession) : List MessageChunk :=
  if query.resumeSessionId.isSome && !resolved.resumed then
    [.system "Could not resume previous session; starting a new session."]
  else []

def attemptLoop (query : Query) : (left attempt : Nat) → (lastErrorMsg : Option String) →
    (recoveredAgentNotFound : Bool) → List MessageChunk
  | 0, _, lastErrorMsg, _ =>
      [errorResult "retries_exhausted" [lastErrorMsg.getD
        ("OpenCode query failed after " ++ toString maxRetries ++ " retries")]]
  | left + 1, attempt, _, recovered =>
      let answers := query.attempts attempt
      if answers.cancelledBefore then [abortedResult none]
      else
        match answers.runtime with
        | .error .aborted => [errorResult "aborted" ["OpenCode runtime startup aborted"]]
        | .error (.spawnFailed message) =>
            [errorResult "opencode_binary_not_found" ["Failed to start OpenCode: " ++ message]]
        | .error .portConflict => attemptLoop query left (attempt + 1) (some "Port conflict") recovered
        | .error error => [errorResult "runtime_start_failed" [error.text]]
        | .ok () =>
            match resolveSessionId query.resumeSessionId answers with
            | .error message =>
                let errorClass := classifyOpencodeError message answers.cancelledAfter
                let enriched := enrichOpencodeError message errorClass
                if !shouldRetryResolve errorClass || attempt ≥ maxRetries - 1 then
                  [errorResult errorClass.text [enriched]]
                else attemptLoop query left (attempt + 1) (some enriched) recovered
            | .ok resolved =>
                resumeWarning query resolved ++
                  match createSessionPromptBody query.agents with
                  | .error message => [errorResult "prompt_build_failed" [message]]
                  | .ok () =>
                      match streamOpencodeSession render answers resolved.sessionId with
                      | .ok sessionChunks => sessionChunks
                      | .error message =>
                          if message = "aborted" then [abortedResult (some resolved.sessionId)]
                          else
                            let errorClass := classifyOpencodeError message answers.cancelledAfter
                            let enriched := enrichOpencodeError message errorClass
                            if !shouldRetryStream query recovered errorClass ||
                                attempt ≥ maxRetries - 1 then
                              [errorResult errorClass.text [enriched]]
                            else
                              attemptLoop query left (attempt + 1) (some enriched)
                                (recovered || errorClass = .agentNotFound)

def sendQuery (query : Query) : List MessageChunk :=
  match query.modelRef with
  | none =>
      [errorResult "model_required"
        ["OpenCode requires a model to be specified. " ++
          "Set model in assistants config (e.g., model: anthropic/claude-3-5-sonnet)."]]
  | some modelRef =>
      match parseModelRef modelRef with
      | none =>
          [errorResult "invalid_model_ref"
            ["Invalid OpenCode model ref: '" ++ modelRef ++
              "'. Expected format '<provider>/<model>' " ++
              "(for example 'anthropic/claude-3-5-sonnet')."]]
      | some _ =>
          if query.externalBaseUrl then
            [errorResult "external_base_url_unsupported"
              ["OpenCode external baseUrl mode is no longer supported. " ++
                "Archon now requires managed embedded OpenCode runtime for fully controlled " ++
                "agent lifecycle."]]
          else attemptLoop render query maxRetries 0 none false

/-! ## Results -/

variable {render}

theorem noResult_processToolPart (part : Members) (state : SessionState) :
    NoResult (processToolPart part state).1 := by
  unfold processToolPart
  split
  · exact noResult_nil
  · extract_lets toolName toolState called
    have shown : NoResult called.1 := by
      unfold called
      split
      · exact noResult_nil
      · exact noResult_singleton rfl
    split
    · exact shown
    · split
      · exact shown
      · exact shown.append (noResult_singleton rfl)

theorem noResult_processMessagePartUpdated (properties : Members) (sessionId : String)
    (state : SessionState) :
    NoResult (processMessagePartUpdated properties sessionId state).1 := by
  simp only [processMessagePartUpdated]
  split
  · exact noResult_nil
  · split
    · exact noResult_nil
    · split
      · split
        · exact noResult_nil
        · exact noResult_singleton rfl
      · split
        · exact noResult_nil
        · exact noResult_singleton rfl
      · exact noResult_processToolPart _ state
      · exact noResult_nil

theorem eventLoop_endsInResult (none : NoResult chunks)
    (ended : eventLoop render attempt sessionId index state chunks events = .ok result) :
    EndsInResult True result := by
  induction events generalizing index state chunks with
  | nil =>
      simp only [eventLoop] at ended
      split at ended
      · cases ended
      · cases ended
  | cons item rest induction =>
      simp only [eventLoop] at ended
      split at ended
      · cases ended
      · split at ended
        · cases ended
        · next event =>
            split at ended
            · exact induction none ended
            · have more := noResult_processMessagePartUpdated event.properties sessionId state
              exact induction (none.append more) ended
            · split at ended
              · exact induction none ended
              · cases ended
            · split at ended
              · exact induction none ended
              · cases ended
                apply (endsInResult_append_iff none).mpr
                exact endsInResult_singleton.mpr fun failed => absurd trivial failed
            · exact induction none ended

theorem streamOpencodeSession_endsInResult
    (ended : streamOpencodeSession render attempt sessionId = .ok result) :
    EndsInResult True result := by
  unfold streamOpencodeSession at ended
  split at ended
  · cases ended
  · cases ended
  · exact eventLoop_endsInResult noResult_nil ended

theorem noResult_resumeWarning (query : Query) (resolved : ResolvedSession) :
    NoResult (resumeWarning query resolved) := by
  unfold resumeWarning
  split
  · exact noResult_singleton rfl
  · exact noResult_nil

theorem endsInResult_abortedResult (sessionId : Option String) :
    EndsInResult True [abortedResult sessionId] :=
  endsInResult_singleton.mpr fun _ => rfl

theorem attemptLoop_endsInResult (query : Query) (left attempt : Nat)
    (lastErrorMsg : Option String) (recovered : Bool) :
    EndsInResult True (attemptLoop render query left attempt lastErrorMsg recovered) := by
  induction left generalizing attempt lastErrorMsg recovered with
  | zero => exact endsInResult_errorResult ..
  | succ left induction =>
      simp only [attemptLoop]
      split
      · exact endsInResult_abortedResult none
      · split
        · exact endsInResult_errorResult ..
        · exact endsInResult_errorResult ..
        · exact induction _ _ _
        · exact endsInResult_errorResult ..
        · split
          · split
            · exact endsInResult_errorResult ..
            · exact induction _ _ _
          · next resolved _ =>
              apply (endsInResult_append_iff (noResult_resumeWarning query resolved)).mpr
              split
              · exact endsInResult_errorResult ..
              · split
                · next ended => exact streamOpencodeSession_endsInResult ended
                · split
                  · exact endsInResult_abortedResult _
                  · split
                    · exact endsInResult_errorResult ..
                    · exact induction _ _ _

theorem sendQuery_endsInResult (query : Query) : EndsInResult True (sendQuery render query) := by
  unfold sendQuery
  split
  · exact endsInResult_errorResult ..
  · split
    · exact endsInResult_errorResult ..
    · split
      · exact endsInResult_errorResult ..
      · exact attemptLoop_endsInResult query maxRetries 0 none false

end OpenCode

end HarnessAgent
