import HarnessAgent.Provider.MessageChunk
import HarnessAgent.Provider.NdjsonStream

/-! # The Codex provider

A query runs the CLI and maps its events to chunks, up to the event that ends the
turn. The chunks of an attempt are passed on only when the attempt succeeds; an
attempt that fails in a way that may pass is repeated, a few times.
-/

namespace HarnessAgent

namespace Codex

open Provider

/-! ## Events -/

structure CodexStreamState where
  lastTodoListSignature : Option String := none
  accumulatedText : String := ""
  resolvedThreadId : Option String := none
  lastNonMcpError : Option String := none

inductive ParseResult
  | chunks (shown : List MessageChunk)
  | terminal (chunk : MessageChunk)
  | terminalWithPreamble (shown : List MessageChunk)

def ParseResult.isTerminal : ParseResult → Bool
  | .chunks _ => false
  | .terminal _ => true
  | .terminalWithPreamble _ => true

def ParseResult.intoChunks : ParseResult → List MessageChunk
  | .chunks shown => shown
  | .terminal chunk => [chunk]
  | .terminalWithPreamble shown => shown

def shownText (item : Members) (key : String) : Option String :=
  (item.getStr key).filter (· ≠ "")

def commandExecution (item : Members) : List MessageChunk :=
  match shownText item "command" with
  | none => []
  | some command =>
      let exitSuffix := match (item.get "exit_code").bind Value.asI64 with
        | some code => if code ≠ 0 then "\n[exit code: " ++ toString code ++ "]" else ""
        | none => ""
      [.tool command none none,
        .toolResult command ((item.getStr "aggregated_output").getD "" ++ exitSuffix) none]

def webSearch (item : Members) : List MessageChunk :=
  match shownText item "query" with
  | none => []
  | some query =>
      let searchToolName := "🔍 Searching: " ++ query
      [.tool searchToolName none none, .toolResult searchToolName "" none]

def normalizedTask (task : Value) : String × Bool :=
  ((task.getStr "text").getD "(unnamed task)",
    ((task.get "completed").bind Value.asBool).getD false)

variable (render : Value → String)

def todoSignature (tasks : List (String × Bool)) : String :=
  render (.array (tasks.map fun task => .array [.string task.1, .bool task.2]))

def todoList (item : Members) (state : CodexStreamState) : List MessageChunk × CodexStreamState :=
  match item.get "items" with
  | some (.array (first :: rest)) =>
      let normalized := (first :: rest).map normalizedTask
      let signature := todoSignature render normalized
      if some signature ≠ state.lastTodoListSignature then
        let taskList := String.intercalate "\n"
          (normalized.map fun task => (if task.2 then "✅" else "⬜") ++ " " ++ task.1)
        ([.system ("📋 Tasks:\n" ++ taskList)],
          { state with lastTodoListSignature := some signature })
      else ([], state)
  | _ => ([], state)

def fileErrorMessage (item : Members) : Option String :=
  (item.get "error").bind fun error => match error with
    | .string text => some text
    | .object members => Members.getStr members "message"
    | _ => none

def changeLine (change : Value) : String :=
  let kind := (change.getStr "kind").getD ""
  let icon := if kind = "add" then "➕" else if kind = "delete" then "➖" else "📝"
  icon ++ " " ++ (change.getStr "path").getD "(unknown file)"

def fileChange (item : Members) : List MessageChunk :=
  let failed := (item.getStr "status").getD "" = "failed"
  match item.get "changes" with
  | some (.array (first :: rest)) =>
      let changeList := String.intercalate "\n" ((first :: rest).map changeLine)
      let errorSuffix := if failed then
          match fileErrorMessage item with
          | some message => "\n" ++ message
          | none => ""
        else ""
      [.system ((if failed then "❌" else "✅") ++ " File changes:\n" ++ changeList ++ errorSuffix)]
  | _ =>
      if failed then
        match fileErrorMessage item with
        | some message => [.system ("❌ File change failed: " ++ message)]
        | none => [.system "❌ File change failed"]
      else []

def mcpToolName (item : Members) : String :=
  "🔌 MCP: " ++ match item.getStr "server", item.getStr "tool" with
    | some server, some tool => server ++ "/" ++ tool
    | none, some tool => tool
    | some server, none => server
    | none, none => "MCP tool"

def mcpToolOutput (item : Members) : String :=
  if (item.getStr "status").getD "" = "failed" then
    match (item.getObject "error").bind fun error => error.getStr "message" with
    | some message => "❌ Error: " ++ message
    | none => "❌ Error: MCP tool failed"
  else
    match (item.getObject "result").bind fun result => result.get "content" with
    | some (.array content) => render (.array content)
    | _ => ""

def mcpToolCall (item : Members) : List MessageChunk :=
  [.tool (mcpToolName item) none none, .toolResult (mcpToolName item) (mcpToolOutput render item) none]

def itemCompleted (item : Members) (state : CodexStreamState) (hasOutputFormat : Bool) :
    List MessageChunk × CodexStreamState :=
  match (item.getStr "type").getD "" with
  | "agent_message" =>
      match shownText item "text" with
      | some text =>
          ([.assistant text none],
            if hasOutputFormat then { state with accumulatedText := text } else state)
      | none => ([], state)
  | "command_execution" => (commandExecution item, state)
  | "reasoning" =>
      match shownText item "text" with
      | some text => ([.thinking text], state)
      | none => ([], state)
  | "web_search" => (webSearch item, state)
  | "todo_list" => todoList render item state
  | "file_change" => (fileChange item, state)
  | "mcp_tool_call" => (mcpToolCall render item, state)
  | _ => ([], state)

def extractUsageFromTurnCompleted (event : Members) : TokenUsage :=
  match event.getObject "usage" with
  | some usage =>
      { input := ((usage.get "input_tokens").bind Value.asU64).getD 0
        output := ((usage.get "output_tokens").bind Value.asU64).getD 0 }
  | none => { input := 0, output := 0 }

variable {ε : Type} (fromStr : String → Except ε Value)

def turnCompleted (event : Members) (state : CodexStreamState) (hasOutputFormat : Bool) :
    ParseResult :=
  let wanted := hasOutputFormat && state.accumulatedText ≠ ""
  let parsed := (fromStr state.accumulatedText).toOption
  let structuredOutput := if wanted then parsed else none
  let parseWarningNeeded := wanted && structuredOutput.isNone && parsed.isNone
  let result := MessageChunk.result {
    sessionId := state.resolvedThreadId
    tokens := some (extractUsageFromTurnCompleted event)
    structuredOutput }
  if parseWarningNeeded then
    .terminalWithPreamble
      [.system ("⚠️ Structured output requested but Codex returned non-JSON text. " ++
        "Downstream $nodeId.output.field references may not evaluate correctly."), result]
  else .terminal result

def turnFailed (event : Members) (state : CodexStreamState) : ParseResult :=
  let errorMessage := ((event.getObject "error").bind fun error =>
    error.getStr "message").getD "Unknown error"
  .terminal (.result {
    sessionId := state.resolvedThreadId
    isError := some true
    errorSubtype := some "codex_turn_failed"
    errors := some [errorMessage] })

def parseCodexEvent (event : Members) (state : CodexStreamState)
    (hasOutputFormat surfaceMcpClientErrors : Bool) : ParseResult × CodexStreamState :=
  match (event.getStr "type").getD "" with
  | "thread.started" =>
      match shownText event "thread_id" with
      | some threadId => (.chunks [], { state with resolvedThreadId := some threadId })
      | none => (.chunks [], state)
  | "item.started" => (.chunks [], state)
  | "error" =>
      let message := (event.getStr "message").getD ""
      if !message.mentionsAny ["mcp client"] then
        (.chunks [], { state with lastNonMcpError := some message })
      else if surfaceMcpClientErrors then (.chunks [.system ("⚠️ " ++ message)], state)
      else (.chunks [], state)
  | "turn.failed" => (turnFailed event state, state)
  | "item.completed" =>
      match event.getObject "item" with
      | none => (.chunks [], state)
      | some item =>
          let (chunks, state) := itemCompleted render item state hasOutputFormat
          (.chunks chunks, state)
  | "turn.completed" => (turnCompleted fromStr event state hasOutputFormat, state)
  | _ => (.chunks [], state)

/-! ## Errors -/

inductive CodexErrorClass
  | rateLimit
  | auth
  | crash
  | modelAccess
  | unknown
  deriving DecidableEq

def CodexErrorClass.text : CodexErrorClass → String
  | .rateLimit => "rate_limit"
  | .auth => "auth"
  | .crash => "crash"
  | .modelAccess => "model_access"
  | .unknown => "unknown"

def rateLimitPatterns : List String :=
  ["rate limit", "too many requests", "429", "overloaded"]

def authPatterns : List String :=
  ["credit balance", "unauthorized", "authentication", "invalid token", "401", "403"]

def subprocessCrashPatterns : List String :=
  ["exited with code", "killed", "signal", "codex exec"]

def isModelAccessError (errorMessage : String) : Bool :=
  errorMessage.mentionsAny ["model"] &&
    errorMessage.mentionsAny ["not available", "not found", "access denied"]

def classifyCodexError (errorMessage : String) : CodexErrorClass :=
  if isModelAccessError errorMessage then .modelAccess
  else if errorMessage.mentionsAny rateLimitPatterns then .rateLimit
  else if errorMessage.mentionsAny authPatterns then .auth
  else if errorMessage.mentionsAny subprocessCrashPatterns then .crash
  else .unknown

def codexModelFallbacks : List (String × String) :=
  [("gpt-5.3-codex", "gpt-5.2-codex")]

def buildModelAccessMessage (model : Option String) : String :=
  let normalizedModel := (model.map String.trimmed).filter (· ≠ "")
  let suggested := normalizedModel.bind fun name => List.lookup name codexModelFallbacks
  let fixLine := match suggested with
    | some name =>
        "To fix: update your model in ~/.archon/config.yaml:\n  assistants:\n    codex:\n" ++
          "      model: " ++ name
    | none =>
        "To fix: update your model in ~/.archon/config.yaml to one your account can access."
  let workflowLine := match suggested with
    | some name => "Or set it per-workflow with `model: " ++ name ++ "` in workflow YAML."
    | none => "Or set it per-workflow with a valid `model:` in workflow YAML."
  "❌ Model \"" ++ normalizedModel.getD "the configured model" ++
    "\" is not available for your account.\n\n" ++ fixLine ++ "\n\n" ++ workflowLine

structure EnrichedCodexError where
  message : String
  errorClass : CodexErrorClass
  shouldRetry : Bool

def classifyAndEnrichCodexError (errorMessage : String) (model : Option String) :
    EnrichedCodexError :=
  let errorClass := classifyCodexError errorMessage
  if errorClass = .modelAccess then
    { message := buildModelAccessMessage model, errorClass, shouldRetry := false }
  else if errorClass = .auth then
    { message := "Codex auth error: " ++ errorMessage, errorClass, shouldRetry := false }
  else
    { message := "Codex " ++ errorClass.text ++ ": " ++ errorMessage, errorClass,
      shouldRetry := errorClass = .rateLimit || errorClass = .crash }

/-! ## Attempts -/

structure Process where
  stdout : List (Except String (List UInt8))
  /-- The lines of standard error that have arrived when they are read. -/
  stderr : List String := []
  /-- What waiting for the process reports, if it reports. -/
  exitCode : Option Int := some 0
  /-- Whether the query is found cancelled when an item arrives. -/
  cancelledAt : Nat → Bool := fun _ => false

structure Attempt where
  cancelledBefore : Bool := false
  /-- The process with its prompt written, or the error of getting there. -/
  started : Except String Process
  cancelledAfter : Bool := false

/-- How reading the events ends: after a terminal event or without one, or with an
error of reading. -/
inductive EventsEnd
  | ended (isDone : Bool) (state : CodexStreamState) (shown : List MessageChunk)
  | failed (message : String)

structure Settings where
  hasOutputFormat : Bool
  surfaceMcpClientErrors : Bool

def eventLoop (settings : Settings) (process : Process) :
    Nat → CodexStreamState → List MessageChunk → List (NdjsonStream.Item ε) → EventsEnd
  | _, state, shown, [] => .ended false state shown
  | index, state, shown, item :: rest =>
      if process.cancelledAt index then .ended false state shown
      else
        match item with
        | .value (.object event) =>
            let (result, next) := parseCodexEvent render fromStr event state
              settings.hasOutputFormat settings.surfaceMcpClientErrors
            if result.isTerminal then .ended true next (shown ++ result.intoChunks)
            else eventLoop settings process (index + 1) next (shown ++ result.intoChunks) rest
        | .value _ => eventLoop settings process (index + 1) state shown rest
        | .io message =>
            .failed ("I/O reading Codex stdout (stderr: " ++
              String.intercalate "\n" process.stderr ++ "): " ++ message)
        | .parseError _ _ _ => eventLoop settings process (index + 1) state shown rest

def streamIncomplete (state : CodexStreamState) : MessageChunk :=
  .result {
    sessionId := state.resolvedThreadId
    isError := some true
    errorSubtype := some "codex_stream_incomplete"
    errors := some [state.lastNonMcpError.getD
      "Codex stream closed without turn.completed or turn.failed"] }

def exitText (process : Process) (code : Int) : String :=
  let context := String.intercalate "\n" process.stderr
  "codex exec exited with code " ++ toString code ++
    if context = "" then "" else " (stderr: " ++ context ++ ")"

def runCodexAttempt (settings : Settings) (seedThreadId : Option String) (attempt : Attempt) :
    Except String (List MessageChunk) :=
  match attempt.started with
  | .error message => .error message
  | .ok process =>
      match eventLoop render fromStr settings process 0 { resolvedThreadId := seedThreadId } []
          (NdjsonStream.fromByteStream fromStr process.stdout) with
      | .failed message => .error message
      | .ended true _ shown => .ok shown
      | .ended false state shown =>
          -- An exit code counts only when no terminal event was read.
          match process.exitCode.filter (· ≠ 0) with
          | some code => .error (exitText process code)
          | none => .ok (shown ++ [streamIncomplete state])

/-! ## Queries -/

def maxSubprocessRetries : Nat := 3

/-- The configuration of a query, as far as its chunks depend on it, and what the
environment answers. -/
structure Query where
  /-- The variables that the servers' configuration misses, if one is set and loads. -/
  mcp : Option (Except String (List String))
  binaryPath : Except String (Option String)
  resumeSessionId : Option String
  model : Option String
  hasOutputFormat : Bool
  cancelledBefore : Bool := false
  attempts : Nat → Attempt

def missingVarsWarning (missingVars : List String) : List MessageChunk :=
  if missingVars = [] then []
  else [.system ("⚠️ MCP config references undefined env vars: " ++
    String.intercalate ", " missingVars.eraseDups ++
    ". These will be empty strings - MCP servers may fail to authenticate.")]

def attemptLoop (query : Query) : (retries attempt : Nat) → List MessageChunk
  | retries, attempt =>
      if (query.attempts attempt).cancelledBefore then []
      else
        match runCodexAttempt render fromStr
            { hasOutputFormat := query.hasOutputFormat
              surfaceMcpClientErrors := query.mcp.isSome }
            query.resumeSessionId (query.attempts attempt) with
        | .ok shown => shown
        | .error message =>
            if (query.attempts attempt).cancelledAfter then []
            else
              let enriched := classifyAndEnrichCodexError message query.model
              match enriched.shouldRetry, retries with
              | true, more + 1 => attemptLoop query more (attempt + 1)
              | _, _ => [errorResult "codex_error" [enriched.message]]

def sendQuery (query : Query) : List MessageChunk :=
  match query.mcp with
  | some (.error message) => [errorResult "codex_mcp_config_invalid" [message]]
  | some (.ok missingVars) => missingVarsWarning missingVars ++ afterMcp
  | none => afterMcp
where
  afterMcp : List MessageChunk :=
    match query.binaryPath with
    | .error message => [errorResult "codex_binary_not_found" [message]]
    | .ok _ =>
        if query.cancelledBefore then []
        else attemptLoop render fromStr query maxSubprocessRetries 0

/-- The query is never found cancelled. -/
structure NotCancelled (query : Query) : Prop where
  start : query.cancelledBefore = false
  before : ∀ attempt, (query.attempts attempt).cancelledBefore = false
  after : ∀ attempt, (query.attempts attempt).cancelledAfter = false

/-! ## Results -/

variable {render fromStr}

variable (item : Members)

theorem noResult_todoList (state : CodexStreamState) : NoResult (todoList render item state).1 := by
  simp only [todoList]
  split
  · split
    · exact noResult_singleton rfl
    · exact noResult_nil
  · exact noResult_nil

theorem noResult_fileChange : NoResult (fileChange item) := by
  simp only [fileChange]
  split
  · exact noResult_singleton rfl
  · split
    · split
      · exact noResult_singleton rfl
      · exact noResult_singleton rfl
    · exact noResult_nil

theorem noResult_commandExecution : NoResult (commandExecution item) := by
  unfold commandExecution
  split
  · exact noResult_nil
  · exact (noResult_singleton rfl).append (noResult_singleton rfl)

theorem noResult_webSearch : NoResult (webSearch item) := by
  unfold webSearch
  split
  · exact noResult_nil
  · exact (noResult_singleton rfl).append (noResult_singleton rfl)

theorem noResult_mcpToolCall : NoResult (mcpToolCall render item) :=
  (noResult_singleton rfl).append (noResult_singleton rfl)

theorem noResult_itemCompleted (state : CodexStreamState)
    (hasOutputFormat : Bool) : NoResult (itemCompleted render item state hasOutputFormat).1 := by
  unfold itemCompleted
  split
  · split
    · exact noResult_singleton rfl
    · exact noResult_nil
  · exact noResult_commandExecution item
  · split
    · exact noResult_singleton rfl
    · exact noResult_nil
  · exact noResult_webSearch item
  · exact noResult_todoList item state
  · exact noResult_fileChange item
  · exact noResult_mcpToolCall item
  · exact noResult_nil

/-- What an event may give: a result at its end if it is terminal, and none otherwise. -/
def ParseResult.Sound (result : ParseResult) : Prop :=
  if result.isTerminal then EndsInResult True result.intoChunks else NoResult result.intoChunks

theorem turnCompleted_sound (event : Members) (state : CodexStreamState) (hasOutputFormat : Bool) :
    (turnCompleted fromStr event state hasOutputFormat).Sound := by
  have normal : ∀ fields, EndsInResult True [.result fields] :=
    fun fields => endsInResult_singleton.mpr fun failed => absurd trivial failed
  unfold turnCompleted
  extract_lets wanted parsed structuredOutput parseWarningNeeded result
  split
  · exact (endsInResult_cons_iff rfl).mpr (normal _)
  · exact normal _

theorem parseCodexEvent_sound (event : Members) (state : CodexStreamState)
    (hasOutputFormat surfaceMcpClientErrors : Bool) :
    (parseCodexEvent render fromStr event state hasOutputFormat surfaceMcpClientErrors).1.Sound := by
  simp only [parseCodexEvent]
  split
  · split
    · exact noResult_nil
    · exact noResult_nil
  · exact noResult_nil
  · split
    · exact noResult_nil
    · split
      · exact noResult_singleton rfl
      · exact noResult_nil
  · exact endsInResult_singleton.mpr fun _ => rfl
  · split
    · exact noResult_nil
    · exact noResult_itemCompleted _ state hasOutputFormat
  · exact turnCompleted_sound event state hasOutputFormat
  · exact noResult_nil

/-- The chunks that are read have a result exactly if a terminal event was read. -/
def EventsEnd.Sound : EventsEnd → Prop
  | .ended true _ shown => EndsInResult True shown
  | .ended false _ shown => NoResult shown
  | .failed _ => True

theorem eventLoop_sound (settings : Settings) (process : Process) (index : Nat)
    (state : CodexStreamState) {shown : List MessageChunk} (none : NoResult shown)
    (items : List (NdjsonStream.Item ε)) :
    (eventLoop render fromStr settings process index state shown items).Sound := by
  induction items generalizing index state shown with
  | nil => exact none
  | cons item rest induction =>
      simp only [eventLoop]
      split
      · exact none
      · split
        · next event =>
            have sound := @parseCodexEvent_sound render ε fromStr event state
              settings.hasOutputFormat settings.surfaceMcpClientErrors
            unfold ParseResult.Sound at sound
            split
            · next terminal =>
                rw [if_pos terminal] at sound
                exact (endsInResult_append_iff none).mpr sound
            · next running =>
                rw [if_neg running] at sound
                exact induction _ _ (none.append sound)
        · exact induction _ _ none
        · trivial
        · exact induction _ _ none

theorem runCodexAttempt_endsInResult
    (succeeded : runCodexAttempt render fromStr settings seedThreadId attempt = .ok shown) :
    EndsInResult True shown := by
  unfold runCodexAttempt at succeeded
  split at succeeded
  · cases succeeded
  · next process started =>
      have sound := @eventLoop_sound render ε fromStr settings process 0
        { resolvedThreadId := seedThreadId } [] noResult_nil
        (NdjsonStream.fromByteStream fromStr process.stdout)
      split at succeeded
      · cases succeeded
      · next read =>
          rw [read] at sound
          cases succeeded
          exact sound
      · next read =>
          rw [read] at sound
          split at succeeded
          · cases succeeded
          · cases succeeded
            exact (endsInResult_append_iff sound).mpr (endsInResult_singleton.mpr fun _ => rfl)

theorem attemptLoop_cases (query : Query) (retries attempt : Nat) :
    EndsInResult True (attemptLoop render fromStr query retries attempt) ∨
      (attemptLoop render fromStr query retries attempt = [] ∧ ∃ last,
        (query.attempts last).cancelledBefore = true ∨
          (query.attempts last).cancelledAfter = true) := by
  fun_induction attemptLoop render fromStr query retries attempt with
  | case1 retries attempt cancelled => exact .inr ⟨rfl, attempt, .inl cancelled⟩
  | case2 retries attempt _ shown succeeded => exact .inl (runCodexAttempt_endsInResult succeeded)
  | case3 retries attempt _ message failed cancelled => exact .inr ⟨rfl, attempt, .inr cancelled⟩
  | case4 attempt _ message failed _ enriched retry more induction => exact induction
  | case5 => exact .inl (endsInResult_errorResult ..)

/-- A query that is found cancelled may stop without a result; it never has two. -/
theorem attemptLoop_atMostOne (query : Query) (retries attempt : Nat) :
    NoResult (attemptLoop render fromStr query retries attempt) ∨
      EndsInResult True (attemptLoop render fromStr query retries attempt) := by
  rcases @attemptLoop_cases render ε fromStr query retries attempt with ended | ⟨nothing, -⟩
  · exact .inr ended
  · rw [nothing]
    exact .inl noResult_nil

theorem attemptLoop_endsInResult (running : NotCancelled query) (retries attempt : Nat) :
    EndsInResult True (attemptLoop render fromStr query retries attempt) := by
  rcases @attemptLoop_cases render ε fromStr query retries attempt with
    ended | ⟨-, last, cancelled | cancelled⟩
  · exact ended
  · rw [running.before] at cancelled
    cases cancelled
  · rw [running.after] at cancelled
    cases cancelled

theorem noResult_missingVarsWarning (missingVars : List String) :
    NoResult (missingVarsWarning missingVars) := by
  unfold missingVarsWarning
  split
  · exact noResult_nil
  · exact noResult_singleton rfl

theorem sendQuery_cases (query : Query) :
    ∃ warnings exit, sendQuery render fromStr query = warnings ++ exit ∧ NoResult warnings ∧
      ((∃ subtype message, exit = [errorResult subtype [message]]) ∨
        (query.cancelledBefore = true ∧ exit = []) ∨
        exit = attemptLoop render fromStr query maxSubprocessRetries 0) := by
  have later : (∃ subtype message, sendQuery.afterMcp render fromStr query =
        [errorResult subtype [message]]) ∨
      (query.cancelledBefore = true ∧ sendQuery.afterMcp render fromStr query = []) ∨
      sendQuery.afterMcp render fromStr query =
        attemptLoop render fromStr query maxSubprocessRetries 0 := by
    unfold sendQuery.afterMcp
    split
    · exact .inl ⟨_, _, rfl⟩
    · split
      · next cancelled => exact .inr (.inl ⟨cancelled, rfl⟩)
      · exact .inr (.inr rfl)
  unfold sendQuery
  split
  · exact ⟨[], _, rfl, noResult_nil, .inl ⟨_, _, rfl⟩⟩
  · exact ⟨_, _, rfl, noResult_missingVarsWarning _, later⟩
  · exact ⟨[], _, rfl, noResult_nil, later⟩

theorem sendQuery_endsInResult (running : NotCancelled query) :
    EndsInResult True (sendQuery render fromStr query) := by
  obtain ⟨warnings, exit, whole, none, exits⟩ := @sendQuery_cases render ε fromStr query
  rw [whole, endsInResult_append_iff none]
  rcases exits with ⟨subtype, message, rfl⟩ | ⟨cancelled, -⟩ | rfl
  · exact endsInResult_errorResult ..
  · rw [running.start] at cancelled
    cases cancelled
  · exact attemptLoop_endsInResult running _ _

theorem sendQuery_atMostOne (query : Query) :
    NoResult (sendQuery render fromStr query) ∨
      EndsInResult True (sendQuery render fromStr query) := by
  obtain ⟨warnings, exit, whole, none, exits⟩ := @sendQuery_cases render ε fromStr query
  rw [whole, endsInResult_append_iff none]
  rcases exits with ⟨subtype, message, rfl⟩ | ⟨-, rfl⟩ | rfl
  · exact .inr (endsInResult_errorResult ..)
  · exact .inl (none.append noResult_nil)
  · rcases @attemptLoop_atMostOne render ε fromStr query maxSubprocessRetries 0 with silent | ends
    · exact .inl (none.append silent)
    · exact .inr ends

end Codex

end HarnessAgent
