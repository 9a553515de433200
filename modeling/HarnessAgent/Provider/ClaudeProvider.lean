import HarnessAgent.Foundation.TextScan
import HarnessAgent.Provider.MessageChunk
import HarnessAgent.Provider.NdjsonStream

/-! # The Claude provider

A query runs the CLI, reads its standard output as one JSON event a line, and maps
the events to chunks. An attempt that fails in a way that may pass is repeated, a
few times. The chunks of an attempt are only passed on when the attempt succeeds.
-/

namespace HarnessAgent

namespace Claude

open Provider

/-! ## Parsing -/

structure RawUsage where
  inputTokens : Option F64
  outputTokens : Option F64
  totalTokens : Option F64

/-- A number that may be absent or null; anything else is an error. -/
def optionalNumber : Option Value → Option (Option F64)
  | none => some none
  | some .null => some none
  | some (.number value) => some (some value.asF64)
  | some _ => none

/-- The deserializer takes an object, or the fields as an array in their order. -/
def rawUsage : Value → Option RawUsage
  | .object members => do
      let inputTokens ← optionalNumber (Members.get members "input_tokens")
      let outputTokens ← optionalNumber (Members.get members "output_tokens")
      let totalTokens ← optionalNumber (Members.get members "total_tokens")
      pure { inputTokens, outputTokens, totalTokens }
  | .array [first, second, third] => do
      let inputTokens ← optionalNumber (some first)
      let outputTokens ← optionalNumber (some second)
      let totalTokens ← optionalNumber (some third)
      pure { inputTokens, outputTokens, totalTokens }
  | _ => none

def normalizeClaudeUsage (usage : Option RawUsage) : Option TokenUsage := do
  let usage ← usage
  let input ← usage.inputTokens
  let output ← usage.outputTokens
  if !input.isFinite || !output.isFinite then none
  else pure {
    input := input.toUnsigned 64
    output := output.toUnsigned 64
    total := (usage.totalTokens.filter F64.isFinite).map (F64.toUnsigned 64) }

def maxToolOutputLen : Nat := 10000

/-- Cuts a long output. Cutting inside a character panics. -/
def truncateToolOutput (rawOutput : String) : Option String :=
  if Text.byteLength rawOutput.toList > maxToolOutputLen then
    (Text.takeBytes maxToolOutputLen rawOutput.toList).map fun start =>
      String.ofList start ++ "..."
  else some rawOutput

def textBlock (block : Value) : Option String :=
  if block.getStr "type" = some "text" then block.getStr "text" else none

def rawToolOutput (render : Value → String) (content : Option Value) : String :=
  match content with
  | some (.string text) => text
  | some (.array blocks) => String.join (blocks.filterMap textBlock)
  | some value => render value
  | none => ""

def toolResultBlock (event : Value) : Option Value := do
  let message ← event.get "message"
  let content ← message.getArray "content"
  let first ← content.head?
  if first.getStr "type" = some "tool_result" then pure first else none

def assistantBlock (block : Value) : List MessageChunk :=
  match (block.getStr "type").getD "" with
  | "text" =>
      match block.getStr "text" with
      | some text => if text = "" then [] else [.assistant text none]
      | none => []
  | "tool_use" =>
      match block.getStr "name" with
      | some name =>
          let toolInput := match block.get "input" with
            | some .null => .object []
            | none => .object []
            | some value => value
          [.tool name (some toolInput) (block.getStr "id")]
      | none => []
  | _ => []

def failedServer (server : Value) : Option String := do
  let name ← server.getStr "name"
  let status ← server.getStr "status"
  if status ≠ "connected" then pure (name ++ " (" ++ status ++ ")") else none

def resultChunk (event : Value) : MessageChunk :=
  let isErrorRaw := (event.get "is_error").bind Value.asBool
  let subtype := event.getStr "subtype"
  -- An error flag on a successful result is no error.
  let isRealError := isErrorRaw = some true ∧ subtype ≠ some "success"
  let errors := ((event.getArray "errors").map fun items =>
    items.filterMap Value.asStr).filter (· ≠ [])
  .result {
    sessionId := event.getStr "session_id"
    tokens := normalizeClaudeUsage ((event.get "usage").bind rawUsage)
    structuredOutput := event.get "structured_output"
    isError := if isRealError then some true else none
    errorSubtype := if isRealError then subtype else none
    errors := if isRealError then errors else none
    cost := (event.get "total_cost_usd").bind Value.asF64
    stopReason := event.getStr "stop_reason"
    numTurns := ((event.get "num_turns").bind Value.asU64).map (· % 2 ^ 32)
    modelUsage := (event.get "model_usage").bind Value.asObject }

def parseClaudeStreamJson (render : Value → String) (event : Value) :
    Option (List MessageChunk) :=
  match event.getStr "type" with
  | some "assistant" =>
      let content := (event.get "message").bind fun message => message.getArray "content"
      some ((content.getD []).flatMap assistantBlock)
  | some "system" =>
      if event.getStr "subtype" = some "init" then
        let failed := ((event.getArray "mcp_servers").getD []).filterMap failedServer
        if failed = [] then some []
        else some [.system ("MCP server connection failed: " ++ String.intercalate ", " failed)]
      else some []
  | some "rate_limit_event" =>
      some [.rateLimit (((event.get "rate_limit_info").bind Value.asObject).getD [])]
  | some "result" => some [resultChunk event]
  | some "user" =>
      match toolResultBlock event with
      | none => some []
      | some block =>
          (truncateToolOutput (rawToolOutput render (block.get "content"))).map fun toolOutput =>
            [.toolResult "unknown" toolOutput (block.getStr "tool_use_id")]
  | _ => some []

/-! ## Errors -/

inductive ErrorClass
  | rateLimit
  | auth
  | crash
  | unknown
  deriving DecidableEq

def ErrorClass.text : ErrorClass → String
  | .rateLimit => "rate_limit"
  | .auth => "auth"
  | .crash => "crash"
  | .unknown => "unknown"

def rateLimitPatterns : List String :=
  ["rate limit", "too many requests", "429", "overloaded"]

def authPatterns : List String :=
  ["credit balance", "unauthorized", "authentication", "invalid token", "401", "403"]

def subprocessCrashPatterns : List String :=
  ["exited with code", "killed", "signal", "operation aborted"]

def classifySubprocessError (errorMessage stderrOutput : String) : ErrorClass :=
  let combined := errorMessage ++ " " ++ stderrOutput
  if combined.mentionsAny rateLimitPatterns then .rateLimit
  else if combined.mentionsAny authPatterns then .auth
  else if combined.mentionsAny subprocessCrashPatterns then .crash
  else .unknown

structure EnrichedError where
  message : String
  errorClass : ErrorClass
  shouldRetry : Bool

def classifyAndEnrichError (errorMessage : String) (stderrLines : List String)
    (controllerWasAborted : Bool) : EnrichedError :=
  if controllerWasAborted then
    if errorMessage.mentions "produced no output within" then
      { message := errorMessage, errorClass := .unknown, shouldRetry := false }
    else { message := "Query aborted", errorClass := .unknown, shouldRetry := false }
  else
    let stderrContext := String.intercalate "\n" stderrLines
    let errorClass := classifySubprocessError errorMessage stderrContext
    if errorClass = .auth then
      let enriched := if stderrContext = "" then "Claude Code auth error: " ++ errorMessage
        else "Claude Code auth error: " ++ errorMessage ++ " (" ++ stderrContext ++ ")"
      { message := enriched, errorClass, shouldRetry := false }
    else
      let enriched := if stderrContext = "" then
          "Claude Code " ++ errorClass.text ++ ": " ++ errorMessage
        else "Claude Code " ++ errorClass.text ++ ": " ++ errorMessage ++
          " (stderr: " ++ stderrContext ++ ")"
      { message := enriched, errorClass,
        shouldRetry := errorClass = .rateLimit || errorClass = .crash }

/-! ## Attempts -/

structure Process where
  stdout : List (Except String (List UInt8))
  /-- Nothing arrived within the first-event timeout. -/
  silent : Bool := false
  /-- The lines of standard error that have arrived when they are read. -/
  stderr : List String := []
  /-- What waiting for the process reports, if it reports. -/
  exitCode : Option Int := some 0
  /-- Whether the query is found cancelled when an event arrives. -/
  cancelledAt : Nat → Bool := fun _ => false

structure Attempt where
  cancelledBefore : Bool := false
  /-- The process with its prompt written, or the error of getting there. -/
  started : Except String Process
  cancelledAfter : Bool := false

inductive AttemptOutcome
  | finished (chunks : List MessageChunk)
  | failed (message : String)
  | panicked

/-- The parts of the JSON library that are used: parsing, rendering, and the texts of
its errors; and the quoted form of a text. -/
structure Library (ε : Type) where
  fromStr : String → Except ε Value
  render : Value → String
  showError : ε → String
  quote : String → String

variable {ε : Type} (library : Library ε)

def streamErrorText : NdjsonStream.Item ε → String
  | .value _ => ""
  | .io message => "I/O error reading subprocess stdout: " ++ message
  | .parseError lineNo line source =>
      "JSON parse error on line " ++ toString lineNo ++ ": " ++ library.showError source ++
        "\n  line: " ++ library.quote line

/-- The lines of standard error that are kept, as one text. -/
def stderrContext (process : Process) : String :=
  String.intercalate "\n"
    ((process.stderr.map String.trimmed).filter fun line => line ≠ "")

def checkExit (process : Process) (chunks : List MessageChunk) : AttemptOutcome :=
  match process.exitCode with
  | none => .finished chunks
  | some code =>
      if code ≠ 0 then
        let context := stderrContext process
        .failed ("process exited with code " ++ toString code ++
          if context = "" then "" else " (stderr: " ++ context ++ ")")
      else .finished chunks

def eventLoop (process : Process) : Nat → List MessageChunk → List (NdjsonStream.Item ε) →
    AttemptOutcome
  | _, chunks, [] => checkExit process chunks
  | index, chunks, item :: rest =>
      if process.cancelledAt index then checkExit process chunks
      else
        match item with
        | .value event =>
            match parseClaudeStreamJson library.render event with
            | none => .panicked
            | some more => eventLoop process (index + 1) (chunks ++ more) rest
        | .io message =>
            .failed ("I/O reading stdout (stderr: " ++ stderrContext process ++ "): " ++ message)
        | .parseError _ _ _ => eventLoop process (index + 1) chunks rest

def firstEventTimeoutText (timeoutMs : Nat) : String :=
  "Claude Code subprocess produced no output within " ++ toString timeoutMs ++
    "ms. See logs for claude.first_event_timeout diagnostic dump. " ++
    "Details: https://github.com/coleam00/Archon/issues/1067"

def runSingleAttempt (timeoutMs : Nat) (attempt : Attempt) : AttemptOutcome :=
  match attempt.started with
  | .error message => .failed message
  | .ok process =>
      if process.silent then .failed (firstEventTimeoutText timeoutMs)
      else
        match NdjsonStream.fromByteStream library.fromStr process.stdout with
        | [] => checkExit process []
        | .value event :: rest =>
            match parseClaudeStreamJson library.render event with
            | none => .panicked
            | some chunks => eventLoop library process 0 chunks rest
        | error :: _ => .failed ("stream error: " ++ streamErrorText library error)

/-! ## Queries -/

def maxSubprocessRetries : Nat := 3

/-- The configuration of a query, as far as its chunks depend on it, and what the
environment answers. -/
structure Query where
  /-- The path of the CLI, if one is configured; it may not resolve. -/
  cliPath : Except String (Option String)
  mcpConfig : Except String Unit
  nodeConfigWarnings : List String
  timeoutMs : Nat
  attempts : Nat → Attempt

/-- The retry loop. A panic ends the stream with what it has yielded. -/
def attemptLoop (query : Query) : (retries attempt : Nat) → List MessageChunk
  | retries, attempt =>
      if (query.attempts attempt).cancelledBefore then []
      else
        match runSingleAttempt library query.timeoutMs (query.attempts attempt) with
        | .finished chunks => chunks
        | .panicked => []
        | .failed message =>
            let enriched :=
              classifyAndEnrichError message [] (query.attempts attempt).cancelledAfter
            if enriched.shouldRetry then
              match retries with
              | 0 => []
              | more + 1 => attemptLoop query more (attempt + 1)
            else []

def sendQuery (query : Query) : List MessageChunk :=
  match query.cliPath, query.mcpConfig with
  | .error _, _ => []
  | .ok _, .error _ => []
  | .ok _, .ok _ =>
      (query.nodeConfigWarnings.map fun message => .system ("⚠️ " ++ message)) ++
        attemptLoop library query maxSubprocessRetries 0

/-! ## Successful attempts -/

/-- The chunks of the events of a stream, unless reading it fails or mapping an event
panics. Lines that do not parse are skipped. -/
def eventChunks : List (NdjsonStream.Item ε) → Option (List MessageChunk)
  | [] => some []
  | .value event :: rest => do
      let more ← parseClaudeStreamJson library.render event
      let others ← eventChunks rest
      pure (more ++ others)
  | .io _ :: _ => none
  | .parseError _ _ _ :: rest => eventChunks rest

/-- An attempt that runs to its end: the process starts, answers in time, starts with
a line that parses, is read to its end and exits with zero. -/
structure CleanRun (attempt : Attempt) (chunks : List MessageChunk) : Prop where
  process : ∃ process, attempt.started = .ok process ∧ process.silent = false ∧
    (∀ code, process.exitCode = some code → code = 0) ∧
    (∀ item, (NdjsonStream.fromByteStream library.fromStr process.stdout).head? = some item →
      ∃ event, item = .value event) ∧
    eventChunks library (NdjsonStream.fromByteStream library.fromStr process.stdout) = some chunks

def Retried (timeoutMs : Nat) (attempt : Attempt) : Prop :=
  ∃ message, runSingleAttempt library timeoutMs attempt = .failed message ∧
    (classifyAndEnrichError message [] false).shouldRetry = true

structure NotCancelled (query : Query) : Prop where
  before : ∀ attempt, (query.attempts attempt).cancelledBefore = false
  during : ∀ attempt process, (query.attempts attempt).started = .ok process →
    ∀ index, process.cancelledAt index = false
  after : ∀ attempt, (query.attempts attempt).cancelledAfter = false

variable {chunks : List MessageChunk}

theorem checkExit_eq_finished {process : Process} {result : List MessageChunk} :
    checkExit process chunks = .finished result ↔
      (∀ code, process.exitCode = some code → code = 0) ∧ chunks = result := by
  unfold checkExit
  cases process.exitCode with
  | none => simp
  | some code =>
      by_cases zero : code = 0
      · simp [zero]
      · simp [zero]

variable {library}

theorem eventChunks_value_eq_some {event : Value} {rest : List (NdjsonStream.Item ε)} :
    eventChunks library (.value event :: rest) = some chunks ↔
      ∃ more later, parseClaudeStreamJson library.render event = some more ∧
        eventChunks library rest = some later ∧ more ++ later = chunks := by
  simp [eventChunks, Option.bind_eq_some_iff]

theorem eventLoop_eq_finished (running : ∀ index, process.cancelledAt index = false) (index : Nat)
    (chunks result : List MessageChunk) (items : List (NdjsonStream.Item ε)) :
    eventLoop library process index chunks items = .finished result ↔
      (∀ code, process.exitCode = some code → code = 0) ∧
        ∃ more, eventChunks library items = some more ∧ chunks ++ more = result := by
  induction items generalizing index chunks with
  | nil =>
      rw [eventLoop, checkExit_eq_finished]
      simp [eventChunks]
  | cons item rest induction =>
      simp only [eventLoop, running, Bool.false_eq_true, if_false]
      cases item with
      | value event =>
          cases parsed : parseClaudeStreamJson library.render event with
          | none => simp [parsed, eventChunks]
          | some more =>
              simp only [parsed]
              rw [induction]
              simp [eventChunks_value_eq_some, parsed]
      | io message => simp [eventChunks]
      | parseError lineNo line source => rw [induction, eventChunks]

theorem runSingleAttempt_eq_finished {timeoutMs : Nat}
    (running : ∀ process, attempt.started = .ok process →
      ∀ index, process.cancelledAt index = false) :
    runSingleAttempt library timeoutMs attempt = .finished chunks ↔
      CleanRun library attempt chunks := by
  constructor
  · intro finished
    unfold runSingleAttempt at finished
    split at finished
    · cases finished
    · next process started =>
        split at finished
        · cases finished
        · next intime =>
            have heard : process.silent = false := by simpa using intime
            refine ⟨process, started, heard, ?_⟩
            split at finished
            · next items =>
                obtain ⟨zero, same⟩ := checkExit_eq_finished.mp finished
                subst same
                exact ⟨zero, by simp [items], by simp [items, eventChunks]⟩
            · next event rest items =>
                split at finished
                · cases finished
                · next first parsed =>
                    obtain ⟨zero, more, others, same⟩ :=
                      (eventLoop_eq_finished (running process started) 0 first chunks rest).mp finished
                    refine ⟨zero, by simp [items], ?_⟩
                    simp [items, eventChunks, parsed, others, same]
            · cases finished
  · rintro ⟨process, started, heard, zero, startsWell, events⟩
    simp only [runSingleAttempt, started, heard, Bool.false_eq_true, if_false]
    cases items : NdjsonStream.fromByteStream library.fromStr process.stdout with
    | nil =>
        rw [items, eventChunks] at events
        exact checkExit_eq_finished.mpr ⟨zero, Option.some.inj events⟩
    | cons item rest =>
        obtain ⟨event, rfl⟩ := startsWell item (by simp [items])
        rw [items] at events
        rcases eventChunks_value_eq_some.mp events with ⟨first, more, parsed, others, same⟩
        simp only [parsed]
        apply (eventLoop_eq_finished (running process started) 0 first chunks rest).mpr
        exact ⟨zero, more, others, same⟩

/-! ## The end of the stream -/

/-- The attempts that are made, from a given one on: some are repeated, and a clean
run follows within the retries. -/
def RunsCleanly (library : Library ε) (query : Query) (normal : Prop)
    (retries attempt : Nat) : Prop :=
  ∃ repeated ≤ retries,
    (∀ earlier < repeated, Retried library query.timeoutMs (query.attempts (attempt + earlier))) ∧
    ∃ chunks, CleanRun library (query.attempts (attempt + repeated)) chunks ∧
      EndsInResult normal chunks

variable {normal : Prop} {query : Query}

theorem runsCleanly_of_clean
    (only : ∀ other, CleanRun library (query.attempts attempt) other ↔ other = chunks)
    (decided : ¬ Retried library query.timeoutMs (query.attempts attempt)) (retries : Nat) :
    RunsCleanly library query normal retries attempt ↔ EndsInResult normal chunks := by
  constructor
  · rintro ⟨repeated, -, earlier, other, clean, ends⟩
    cases repeated with
    | zero => exact (only other).mp clean ▸ ends
    | succ repeated => exact absurd (earlier 0 (by omega)) decided
  · intro ends
    exact ⟨0, Nat.zero_le _, by simp, chunks, (only chunks).mpr rfl, ends⟩

theorem not_runsCleanly (unclean : ∀ chunks, ¬ CleanRun library (query.attempts attempt) chunks)
    (last : retries = 0 ∨ ¬ Retried library query.timeoutMs (query.attempts attempt)) :
    ¬ RunsCleanly library query normal retries attempt := by
  rintro ⟨repeated, within, earlier, chunks, clean, -⟩
  cases repeated with
  | zero => exact unclean chunks clean
  | succ repeated =>
      rcases last with none | stops
      · omega
      · exact stops (earlier 0 (by omega))

theorem runsCleanly_succ {retries : Nat}
    (retried : Retried library query.timeoutMs (query.attempts attempt))
    (unclean : ∀ chunks, ¬ CleanRun library (query.attempts attempt) chunks) :
    RunsCleanly library query normal (retries + 1) attempt ↔
      RunsCleanly library query normal retries (attempt + 1) := by
  have shift : ∀ index, attempt + 1 + index = attempt + (index + 1) := by
    intro index
    omega
  constructor
  · rintro ⟨repeated, within, earlier, chunks, clean, ends⟩
    cases repeated with
    | zero => exact absurd clean (unclean chunks)
    | succ repeated =>
        refine ⟨repeated, by omega, ?_, chunks, ?_, ends⟩
        · intro index before
          rw [shift]
          exact earlier (index + 1) (by omega)
        · rw [shift]
          exact clean
  · rintro ⟨repeated, within, earlier, chunks, clean, ends⟩
    refine ⟨repeated + 1, by omega, ?_, chunks, ?_, ends⟩
    · intro index before
      cases index with
      | zero => exact retried
      | succ index =>
          rw [← shift]
          exact earlier index (by omega)
    · rw [← shift]
      exact clean

theorem attemptLoop_endsInResult (running : NotCancelled query) (retries attempt : Nat) :
    EndsInResult normal (attemptLoop library query retries attempt) ↔
      RunsCleanly library query normal retries attempt := by
  have clean : ∀ attempt chunks,
      runSingleAttempt library query.timeoutMs (query.attempts attempt) = .finished chunks ↔
        CleanRun library (query.attempts attempt) chunks :=
    fun attempt chunks => runSingleAttempt_eq_finished (running.during attempt)
  have unclean : ∀ {attempt message},
      runSingleAttempt library query.timeoutMs (query.attempts attempt) = .failed message →
        ∀ chunks, ¬ CleanRun library (query.attempts attempt) chunks := by
    intro attempt message outcome chunks cleanRun
    rw [← clean, outcome] at cleanRun
    cases cleanRun
  fun_induction attemptLoop library query retries attempt with
  | case1 retries attempt cancelled =>
      rw [running.before] at cancelled
      cases cancelled
  | case2 retries attempt _ chunks outcome =>
      symm
      apply runsCleanly_of_clean
      · intro other
        rw [← clean, outcome, AttemptOutcome.finished.injEq]
        exact eq_comm
      · rintro ⟨message, failed, -⟩
        rw [outcome] at failed
        cases failed
  | case3 retries attempt _ outcome =>
      apply iff_of_false (nil_not_endsInResult normal)
      apply not_runsCleanly
      · intro chunks cleanRun
        rw [← clean, outcome] at cleanRun
        cases cleanRun
      · right
        rintro ⟨message, failed, -⟩
        rw [outcome] at failed
        cases failed
  | case4 attempt _ message outcome enriched retry =>
      apply iff_of_false (nil_not_endsInResult normal)
      apply not_runsCleanly _ (.inl rfl)
      exact unclean outcome
  | case5 attempt _ message outcome enriched retry more induction =>
      have same : enriched = classifyAndEnrichError message [] false := by
        simp only [enriched, running.after]
      have retried : Retried library query.timeoutMs (query.attempts attempt) :=
        ⟨message, outcome, same ▸ retry⟩
      exact induction.trans (runsCleanly_succ retried (unclean outcome)).symm
  | case6 retries attempt _ message outcome enriched stops =>
      apply iff_of_false (nil_not_endsInResult normal)
      apply not_runsCleanly (unclean outcome)
      right
      rintro ⟨other, failed, retry⟩
      rw [outcome] at failed
      cases failed
      have same : enriched = classifyAndEnrichError message [] false := by
        simp only [enriched, running.after]
      exact stops (same ▸ retry)

/-- A query of the Claude provider ends in its result exactly if the CLI and the
servers' configuration are found, an attempt that runs cleanly is reached within
the retries, and that attempt's events give one result, as their last chunk. -/
theorem sendQuery_endsInResult (running : NotCancelled query) (normal : Prop) :
    EndsInResult normal (sendQuery library query) ↔
      (∃ path, query.cliPath = .ok path) ∧ query.mcpConfig = .ok () ∧
        RunsCleanly library query normal maxSubprocessRetries 0 := by
  unfold sendQuery
  split
  · next missing => simp [missing, nil_not_endsInResult]
  · next missing => simp [missing, nil_not_endsInResult]
  · next path found loaded =>
      have warnings : NoResult (query.nodeConfigWarnings.map fun message =>
          MessageChunk.system ("⚠️ " ++ message)) := by
        intro chunk member
        obtain ⟨message, -, rfl⟩ := List.mem_map.mp member
        rfl
      rw [endsInResult_append_iff warnings, attemptLoop_endsInResult running]
      simp [found, loaded]

end Claude

end HarnessAgent
