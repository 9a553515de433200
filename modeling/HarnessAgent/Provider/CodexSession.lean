import HarnessAgent.Foundation.RetryLoop
import HarnessAgent.Provider.CodexArgv
import HarnessAgent.Provider.CodexProvider

/-! # The session of a Codex query

Which thread the result of a query names. The CLI announces the thread it works in, and is
told on its command line to resume one.
-/

namespace HarnessAgent

namespace Codex

open Provider RetryLoop

def Names (sessionId : Option String) (chunks : List MessageChunk) : Prop :=
  ∀ fields, .result fields ∈ chunks → fields.sessionId = sessionId

theorem Names.of_noResult (none : NoResult chunks) (sessionId : Option String) :
    Names sessionId chunks := by
  intro fields member
  cases none _ member

theorem Names.append (first : Names sessionId left) (second : Names sessionId right) :
    Names sessionId (left ++ right) := by
  intro fields member
  rcases List.mem_append.mp member with early | late
  · exact first fields early
  · exact second fields late

theorem names_result (fields : ResultFields) : Names fields.sessionId [.result fields] := by
  intro other member
  cases List.mem_singleton.mp member
  rfl

/-! ## What an attempt reads -/

def announcedId (event : Members) : Option String :=
  if (event.getStr "type").getD "" = "thread.started" then shownText event "thread_id" else none

def isTerminalEvent (event : Members) : Bool :=
  let kind := (event.getStr "type").getD ""
  kind = "turn.completed" || kind = "turn.failed"

def lastAnnounced : List Members → Option String
  | [] => none
  | event :: rest => (lastAnnounced rest).or (announcedId event)

inductive ReadingEnd
  | terminal
  | closed
  | failed (message : String)

structure Reading where
  events : List Members
  ending : ReadingEnd

def Reading.after (event : Members) (later : Reading) : Reading :=
  { later with events := event :: later.events }

variable (event : Members)

@[simp] theorem Reading.events_after (later : Reading) :
    (later.after event).events = event :: later.events := rfl

@[simp] theorem Reading.ending_after (later : Reading) :
    (later.after event).ending = later.ending := rfl

variable {ε : Type}

def readItems (process : Process) : Nat → List (NdjsonStream.Item ε) → Reading
  | _, [] => { events := [], ending := .closed }
  | index, item :: rest =>
      if process.cancelledAt index then { events := [], ending := .closed }
      else
        match item with
        | .value (.object event) =>
            if isTerminalEvent event then { events := [event], ending := .terminal }
            else (readItems process (index + 1) rest).after event
        | .value _ => readItems process (index + 1) rest
        | .io message => { events := [], ending := .failed message }
        | .parseError _ _ _ => readItems process (index + 1) rest

variable (render : Value → String) (fromStr : String → Except ε Value)

def reading (process : Process) : Reading :=
  readItems process 0 (NdjsonStream.fromByteStream fromStr process.stdout)

def readingText (process : Process) (message : String) : String :=
  "I/O reading Codex stdout (stderr: " ++ String.intercalate "\n" process.stderr ++ "): " ++ message

def failure (attempt : Attempt) : Option String :=
  match attempt.started with
  | .error message => some message
  | .ok process =>
      match (reading fromStr process).ending with
      | .terminal => none
      | .closed => (process.exitCode.filter (· ≠ 0)).map (exitText process)
      | .failed message => some (readingText process message)

def announced (attempt : Attempt) : Option String :=
  match attempt.started with
  | .error _ => none
  | .ok process => lastAnnounced (reading fromStr process).events

/-! ## What an attempt is told -/

structure Launch where
  rendering : Rendering
  defaults : CodexProviderDefaults
  outputSchemaPath : Option String
  cwd : String
  configOverrides : Option Value

/-- The arguments of an attempt. Only the first one is told to resume a thread. -/
def attemptArgv (launch : Launch) (query : Query) (attempt : Nat) : List String :=
  buildCodexArgv launch.rendering query.model launch.defaults
    (if attempt > 0 then none else query.resumeSessionId) launch.outputSchemaPath launch.cwd
    launch.configOverrides

def resumedId (argv : List String) : Option String :=
  match argv.reverse with
  | threadId :: "resume" :: _ => some threadId
  | _ => none

theorem resumedId_buildCodexArgv (rendering : Rendering) (model : Option String)
    (defaults : CodexProviderDefaults) (resumeSessionId outputSchemaPath : Option String)
    (cwd : String) (configOverrides : Option Value) :
    resumedId (buildCodexArgv rendering model defaults resumeSessionId outputSchemaPath cwd
      configOverrides) = resumeSessionId := by
  unfold resumedId buildCodexArgv
  cases resumeSessionId with
  | none => simp [flag]
  | some threadId => simp [flag]

theorem resumedId_attemptArgv (launch : Launch) (query : Query) (attempt : Nat) :
    resumedId (attemptArgv launch query attempt) =
      if attempt > 0 then none else query.resumeSessionId :=
  resumedId_buildCodexArgv ..

/-! ## Which attempt produces the result -/

def Transient (query : Query) (attempt : Nat) : Prop :=
  ∃ message, failure fromStr (query.attempts attempt) = some message ∧
    (query.attempts attempt).cancelledAfter = false ∧
    (classifyAndEnrichCodexError message query.model).shouldRetry = true

structure Starts (query : Query) : Prop where
  mcpLoads : ∀ message, query.mcp ≠ some (.error message)
  binaryFound : ∃ path, query.binaryPath = .ok path
  running : query.cancelledBefore = false

structure Produces (query : Query) (attempt : Nat) : Prop where
  starts : Starts query
  within : attempt ≤ maxSubprocessRetries
  before : ∀ earlier < attempt,
    (query.attempts earlier).cancelledBefore = false ∧ Transient fromStr query earlier
  running : (query.attempts attempt).cancelledBefore = false
  succeeds : failure fromStr (query.attempts attempt) = none

def attemptSession (launch : Launch) (query : Query) (attempt : Nat) : Option String :=
  (announced fromStr (query.attempts attempt)).or (resumedId (attemptArgv launch query attempt))

/-- A result names the thread of the attempt that produces it. One that the query makes
itself names none. -/
def ReportsSession (launch : Launch) (query : Query) : Prop :=
  ∀ fields, .result fields ∈ sendQuery render fromStr query →
    (∀ attempt, Produces fromStr query attempt →
      fields.sessionId = attemptSession fromStr launch query attempt) ∧
    ((∀ attempt, ¬ Produces fromStr query attempt) → fields.sessionId = none)

/-! ## Events -/

variable {render fromStr}

theorem resolvedThreadId_todoList (item : Members) (state : CodexStreamState) :
    (todoList render item state).2.resolvedThreadId = state.resolvedThreadId := by
  simp only [todoList]
  split
  · split
    · rfl
    · rfl
  · rfl

theorem resolvedThreadId_itemCompleted (item : Members) (state : CodexStreamState)
    (hasOutputFormat : Bool) :
    (itemCompleted render item state hasOutputFormat).2.resolvedThreadId =
      state.resolvedThreadId := by
  unfold itemCompleted
  split
  · split
    · dsimp only
      split
      · rfl
      · rfl
    · rfl
  · rfl
  · split
    · rfl
    · rfl
  · rfl
  · exact resolvedThreadId_todoList item state
  · rfl
  · rfl
  · rfl

theorem names_turnCompleted (state : CodexStreamState) (hasOutputFormat : Bool) :
    Names state.resolvedThreadId
      (turnCompleted fromStr event state hasOutputFormat).intoChunks := by
  unfold turnCompleted
  extract_lets wanted parsed structuredOutput parseWarningNeeded result
  split
  · exact (Names.of_noResult (noResult_singleton rfl) _).append (names_result _)
  · exact names_result _

theorem isTerminal_turnCompleted (state : CodexStreamState)
    (hasOutputFormat : Bool) :
    (turnCompleted fromStr event state hasOutputFormat).isTerminal = true := by
  unfold turnCompleted
  extract_lets wanted parsed structuredOutput parseWarningNeeded result
  split
  · rfl
  · rfl

theorem resolvedThreadId_parseCodexEvent (event : Members) (state : CodexStreamState)
    (hasOutputFormat surfaceMcpClientErrors : Bool) :
    (parseCodexEvent render fromStr event state hasOutputFormat
      surfaceMcpClientErrors).2.resolvedThreadId =
        (announcedId event).or state.resolvedThreadId := by
  unfold parseCodexEvent announcedId
  split
  · next kind =>
      rw [if_pos kind]
      split
      · next threadId shown => rw [shown, Option.some_or]
      · next silent => rw [silent, Option.none_or]
  · next kind => simp [kind]
  · next kind =>
      simp only [kind, String.reduceEq, if_false, Option.none_or]
      split
      · rfl
      · split
        · rfl
        · rfl
  · next kind => simp [kind]
  · next kind =>
      simp only [kind, String.reduceEq, if_false, Option.none_or]
      split
      · rfl
      · exact resolvedThreadId_itemCompleted ..
  · next kind => simp [kind]
  · next started _ _ _ _ _ => rw [if_neg started, Option.none_or]

theorem isTerminal_parseCodexEvent (state : CodexStreamState)
    (hasOutputFormat surfaceMcpClientErrors : Bool) :
    (parseCodexEvent render fromStr event state hasOutputFormat
      surfaceMcpClientErrors).1.isTerminal = isTerminalEvent event := by
  unfold parseCodexEvent isTerminalEvent
  split
  · next kind =>
      rw [kind]
      split
      · rfl
      · rfl
  · next kind =>
      rw [kind]
      rfl
  · next kind =>
      rw [kind]
      dsimp only
      split
      · rfl
      · split
        · rfl
        · rfl
  · next kind =>
      rw [kind]
      rfl
  · next kind =>
      rw [kind]
      split
      · rfl
      · rfl
  · next kind =>
      rw [kind]
      exact isTerminal_turnCompleted event state hasOutputFormat
  · next failed _ completed =>
      have running : ¬ ((event.getStr "type").getD "" = "turn.completed" ∨
          (event.getStr "type").getD "" = "turn.failed") := by
        rintro (kind | kind)
        · exact completed kind
        · exact failed kind
      simpa [ParseResult.isTerminal] using running

theorem names_parseCodexEvent {event : Members} (terminal : isTerminalEvent event = true)
    (state : CodexStreamState) (hasOutputFormat surfaceMcpClientErrors : Bool) :
    Names ((announcedId event).or state.resolvedThreadId)
      (parseCodexEvent render fromStr event state hasOutputFormat
        surfaceMcpClientErrors).1.intoChunks := by
  have kinds : (event.getStr "type").getD "" = "turn.completed" ∨
      (event.getStr "type").getD "" = "turn.failed" := by
    simpa [isTerminalEvent] using terminal
  unfold parseCodexEvent announcedId
  rcases kinds with completed | failed
  · simp only [completed]
    exact names_turnCompleted event state hasOutputFormat
  · simp only [failed]
    exact names_result _

theorem noResult_parseCodexEvent {event : Members} (running : isTerminalEvent event = false)
    (state : CodexStreamState) (hasOutputFormat surfaceMcpClientErrors : Bool) :
    NoResult (parseCodexEvent render fromStr event state hasOutputFormat
      surfaceMcpClientErrors).1.intoChunks := by
  have sound := @parseCodexEvent_sound render ε fromStr event state hasOutputFormat
    surfaceMcpClientErrors
  rw [ParseResult.Sound, isTerminal_parseCodexEvent, running, if_neg Bool.false_ne_true] at sound
  exact sound

/-! ## Attempts -/

/-- What the loop over the events has at its end, told from what it reads. -/
def Follows (process : Process) (kept : Option String) (read : Reading) (outcome : EventsEnd) :
    Prop :=
  match read.ending with
  | .terminal => ∃ final shown, outcome = .ended true final shown ∧
      Names ((lastAnnounced read.events).or kept) shown
  | .closed => ∃ final shown, outcome = .ended false final shown ∧
      final.resolvedThreadId = (lastAnnounced read.events).or kept ∧ NoResult shown
  | .failed message => outcome = .failed (readingText process message)

theorem Follows.after {event : Members}
    (follows : Follows process ((announcedId event).or kept) later outcome) :
    Follows process kept (later.after event) outcome := by
  unfold Follows at follows ⊢
  rw [Reading.ending_after, Reading.events_after, lastAnnounced, Option.or_assoc]
  exact follows

theorem eventLoop_follows (settings : Settings) (process : Process) (index : Nat)
    (state : CodexStreamState) {shown : List MessageChunk} (none : NoResult shown)
    (items : List (NdjsonStream.Item ε)) :
    Follows process state.resolvedThreadId (readItems process index items)
      (eventLoop render fromStr settings process index state shown items) := by
  induction items generalizing index state shown with
  | nil => exact ⟨state, shown, rfl, rfl, none⟩
  | cons item rest induction =>
      unfold readItems eventLoop
      split
      · exact ⟨state, shown, rfl, rfl, none⟩
      · cases item with
        | value json =>
            cases json with
            | object event =>
                dsimp only
                rw [isTerminal_parseCodexEvent]
                cases ends : isTerminalEvent event with
                | true =>
                    have named := @names_parseCodexEvent ε render fromStr event ends state
                      settings.hasOutputFormat settings.surfaceMcpClientErrors
                    exact ⟨_, _, rfl, (Names.of_noResult none _).append named⟩
                | false =>
                    apply Follows.after
                    rw [← @resolvedThreadId_parseCodexEvent ε render fromStr event state
                      settings.hasOutputFormat settings.surfaceMcpClientErrors]
                    exact induction _ _ (none.append (noResult_parseCodexEvent ends state _ _))
            | _ => exact induction _ _ none
        | io message => exact rfl
        | parseError _ _ _ => exact induction _ _ none

/-- An attempt fails or succeeds as its reading says. The results of one that succeeds name
the thread it announces, or else the one it was seeded with. -/
theorem runCodexAttempt_cases (settings : Settings) (seedThreadId : Option String)
    (attempt : Attempt) :
    (∃ message, failure fromStr attempt = some message ∧
      runCodexAttempt render fromStr settings seedThreadId attempt = .error message) ∨
    ∃ shown, failure fromStr attempt = none ∧
      runCodexAttempt render fromStr settings seedThreadId attempt = .ok shown ∧
      Names ((announced fromStr attempt).or seedThreadId) shown := by
  unfold failure runCodexAttempt announced reading
  cases attempt.started with
  | error cause => exact .inl ⟨cause, rfl, rfl⟩
  | ok process =>
      have follows := @eventLoop_follows ε render fromStr settings process 0
        { resolvedThreadId := seedThreadId } [] noResult_nil
        (NdjsonStream.fromByteStream fromStr process.stdout)
      unfold Follows at follows
      dsimp only
      split at follows
      · rcases follows with ⟨final, shown, looped, named⟩
        rw [looped]
        exact .inr ⟨shown, rfl, rfl, named⟩
      · rcases follows with ⟨final, shown, looped, kept, none⟩
        rw [looped, ← kept]
        dsimp only
        cases process.exitCode.filter (· ≠ 0) with
        | some code => exact .inl ⟨exitText process code, rfl, rfl⟩
        | none => exact .inr ⟨_, rfl, rfl, (Names.of_noResult none _).append (names_result _)⟩
      · next cause _ =>
          rw [follows]
          exact .inl ⟨readingText process cause, rfl, rfl⟩

variable {attempt : Attempt} {seedThreadId : Option String} {settings : Settings}

theorem failure_eq_none_of_ok
    (succeeded : runCodexAttempt render fromStr settings seedThreadId attempt = .ok shown) :
    failure fromStr attempt = none := by
  rcases @runCodexAttempt_cases ε render fromStr settings seedThreadId attempt with
    ⟨message, -, failed⟩ | ⟨_, silent, -, -⟩
  · rw [failed] at succeeded
    cases succeeded
  · exact silent

theorem failure_eq_some_of_error
    (failed : runCodexAttempt render fromStr settings seedThreadId attempt = .error message) :
    failure fromStr attempt = some message := by
  rcases @runCodexAttempt_cases ε render fromStr settings seedThreadId attempt with
    ⟨cause, reason, same⟩ | ⟨_, -, succeeded, -⟩
  · rw [failed] at same
    cases same
    exact reason
  · rw [failed] at succeeded
    cases succeeded

theorem names_of_ok
    (succeeded : runCodexAttempt render fromStr settings seedThreadId attempt = .ok shown) :
    Names ((announced fromStr attempt).or seedThreadId) shown := by
  rcases @runCodexAttempt_cases ε render fromStr settings seedThreadId attempt with
    ⟨message, -, failed⟩ | ⟨_, -, same, named⟩
  · rw [failed] at succeeded
    cases succeeded
  · rw [same] at succeeded
    cases succeeded
    exact named

/-! ## The query -/

/-- What an attempt means for the loop: it gives the result, or calls for another one, or
neither. -/
def verdict (fromStr : String → Except ε Value) (query : Query) (attempt : Nat) : Verdict Nat :=
  match failure fromStr (query.attempts attempt) with
  | none => .done attempt
  | some message =>
      if (query.attempts attempt).cancelledAfter then .stop
      else if (classifyAndEnrichCodexError message query.model).shouldRetry then .again
      else .stop

def cancelledBefore (query : Query) (attempt : Nat) : Bool :=
  (query.attempts attempt).cancelledBefore

variable {query : Query}

theorem verdict_eq_done_iff {attempt result : Nat} :
    verdict fromStr query attempt = .done result ↔
      failure fromStr (query.attempts attempt) = none ∧ attempt = result := by
  unfold verdict
  cases failure fromStr (query.attempts attempt) with
  | none => simp
  | some message =>
      dsimp only
      split
      · simp
      · split
        · simp
        · simp

theorem verdict_eq_again_iff {attempt : Nat} :
    verdict fromStr query attempt = .again ↔ Transient fromStr query attempt := by
  unfold verdict Transient
  cases failure fromStr (query.attempts attempt) with
  | none => simp
  | some message =>
      dsimp only
      split
      · next cancelled => simp [cancelled]
      · next running =>
          split
          · next retry => simp [running, retry]
          · next final => simp [final]

/-- What the loop delivers, told from its run: the chunks of the attempt that gives the
result, or no result that names a thread. -/
def Delivers (render : Value → String) (fromStr : String → Except ε Value) (query : Query)
    (result : Option Nat) (chunks : List MessageChunk) : Prop :=
  match result with
  | some attempt => ∃ settings,
      runCodexAttempt render fromStr settings query.resumeSessionId (query.attempts attempt) =
        .ok chunks
  | none => Names none chunks

theorem names_errorResult (errorSubtype : String) (errors : List String) :
    Names none [errorResult errorSubtype errors] :=
  names_result _

theorem attemptLoop_delivers (query : Query) (retries attempt : Nat) :
    Delivers render fromStr query
      (run (cancelledBefore query) (verdict fromStr query) retries attempt).result
      (attemptLoop render fromStr query retries attempt) := by
  fun_induction attemptLoop render fromStr query retries attempt with
  | case1 retries attempt cancelled =>
      rw [run_of_halted cancelled]
      exact Names.of_noResult noResult_nil none
  | case2 retries attempt running shown succeeded =>
      have decided : verdict fromStr query attempt = .done attempt :=
        verdict_eq_done_iff.mpr ⟨failure_eq_none_of_ok succeeded, rfl⟩
      rw [run_of_done (Bool.eq_false_of_not_eq_true running) decided]
      exact ⟨_, succeeded⟩
  | case3 retries attempt running message failed cancelled =>
      have decided : verdict fromStr query attempt = .stop := by
        simp only [verdict, failure_eq_some_of_error failed, cancelled, if_true]
      rw [run_of_stop (Bool.eq_false_of_not_eq_true running) decided]
      exact Names.of_noResult noResult_nil none
  | case4 attempt running message failed uncancelled enriched more retry induction =>
      have decided : verdict fromStr query attempt = .again :=
        verdict_eq_again_iff.mpr ⟨message, failure_eq_some_of_error failed,
          Bool.eq_false_of_not_eq_true uncancelled, retry⟩
      rw [run_succ_of_again (Bool.eq_false_of_not_eq_true running) decided, Trace.result_after]
      exact induction
  | case5 retries attempt running message failed uncancelled enriched exhausted =>
      -- Either the error calls for no retry, or no retry is left.
      have silent :
          (run (cancelledBefore query) (verdict fromStr query) retries attempt).result = none := by
        cases retry : enriched.shouldRetry with
        | false =>
            have decided : verdict fromStr query attempt = .stop := by
              simp only [verdict, failure_eq_some_of_error failed, uncancelled]
              exact if_neg (Bool.eq_false_iff.mp retry)
            rw [run_of_stop (Bool.eq_false_of_not_eq_true running) decided]
        | true =>
            have decided : verdict fromStr query attempt = .again :=
              verdict_eq_again_iff.mpr ⟨message, failure_eq_some_of_error failed,
                Bool.eq_false_of_not_eq_true uncancelled, retry⟩
            cases retries with
            | zero => rw [run_zero_of_again (Bool.eq_false_of_not_eq_true running) decided]
            | succ more => exact absurd rfl (exhausted more retry)
      rw [silent]
      exact names_errorResult "codex_error" [enriched.message]

theorem result_eq_some_iff_produces (starts : Starts query) {attempt : Nat} :
    (run (cancelledBefore query) (verdict fromStr query) maxSubprocessRetries 0).result =
      some attempt ↔ Produces fromStr query attempt := by
  rw [result_eq_some_iff_first]
  constructor
  · rintro ⟨last, -, within, before, running, decided⟩
    rcases verdict_eq_done_iff.mp decided with ⟨succeeds, rfl⟩
    refine ⟨starts, by omega, ?_, running, succeeds⟩
    intro earlier behind
    rcases before earlier (Nat.zero_le earlier) behind with ⟨goesOn, again⟩
    exact ⟨goesOn, verdict_eq_again_iff.mp again⟩
  · intro produces
    refine ⟨attempt, Nat.zero_le attempt, ?_, ?_, produces.running,
      verdict_eq_done_iff.mpr ⟨produces.succeeds, rfl⟩⟩
    · rw [Nat.zero_add]
      exact produces.within
    · intro earlier _ behind
      rcases produces.before earlier behind with ⟨goesOn, transient⟩
      exact ⟨goesOn, verdict_eq_again_iff.mpr transient⟩

theorem sendQuery_of_starts {query : Query} (starts : Starts query) :
    ∃ warnings, NoResult warnings ∧ sendQuery render fromStr query =
      warnings ++ attemptLoop render fromStr query maxSubprocessRetries 0 := by
  rcases starts.binaryFound with ⟨path, found⟩
  have later : sendQuery.afterMcp render fromStr query =
      attemptLoop render fromStr query maxSubprocessRetries 0 := by
    simp only [sendQuery.afterMcp, found, starts.running, Bool.false_eq_true, if_false]
  unfold sendQuery
  rw [later]
  split
  · next message loaded => exact absurd loaded (starts.mcpLoads message)
  · exact ⟨_, noResult_missingVarsWarning _, rfl⟩
  · exact ⟨[], noResult_nil, rfl⟩

/-- A query that gets to no attempt ends with an error of its own, or silently. -/
theorem sendQuery_of_not_starts (stays : ¬ Starts query) :
    Names none (sendQuery render fromStr query) := by
  have later (loads : ∀ message, query.mcp ≠ some (.error message)) :
      Names none (sendQuery.afterMcp render fromStr query) := by
    unfold sendQuery.afterMcp
    split
    · exact names_errorResult _ _
    · next path found =>
        split
        · exact Names.of_noResult noResult_nil none
        · next running =>
            exact absurd ⟨loads, ⟨path, found⟩, Bool.eq_false_of_not_eq_true running⟩ stays
  unfold sendQuery
  split
  · exact names_errorResult _ _
  · next missingVars loaded =>
      apply (Names.of_noResult (noResult_missingVarsWarning missingVars) none).append
      apply later
      intro message failed
      rw [loaded] at failed
      cases failed
  · next unset =>
      apply later
      intro message failed
      rw [unset] at failed
      cases failed

theorem sendQuery_of_produces {query : Query} {attempt : Nat}
    (produces : Produces fromStr query attempt) :
    ∃ settings warnings shown, NoResult warnings ∧
      sendQuery render fromStr query = warnings ++ shown ∧
      runCodexAttempt render fromStr settings query.resumeSessionId (query.attempts attempt) =
        .ok shown := by
  rcases @sendQuery_of_starts ε render fromStr query produces.starts with ⟨warnings, none, whole⟩
  have delivers := @attemptLoop_delivers ε render fromStr query maxSubprocessRetries 0
  rw [(result_eq_some_iff_produces produces.starts).mpr produces] at delivers
  rcases delivers with ⟨settings, succeeded⟩
  exact ⟨settings, warnings, _, none, whole, succeeded⟩

theorem sendQuery_of_not_produces (never : ∀ attempt, ¬ Produces fromStr query attempt) :
    Names none (sendQuery render fromStr query) := by
  by_cases starts : Starts query
  · rcases @sendQuery_of_starts ε render fromStr query starts with ⟨warnings, silent, whole⟩
    have delivers := @attemptLoop_delivers ε render fromStr query maxSubprocessRetries 0
    have noResult :
        (run (cancelledBefore query) (verdict fromStr query) maxSubprocessRetries 0).result =
          none := by
      apply Option.eq_none_iff_forall_not_mem.mpr
      intro attempt result
      exact never attempt ((result_eq_some_iff_produces starts).mp result)
    rw [noResult] at delivers
    rw [whole]
    exact (Names.of_noResult silent none).append delivers
  · exact sendQuery_of_not_starts starts

theorem sendQuery_reportsSession_iff (render : Value → String)
    (fromStr : String → Except ε Value) (launch : Launch) (query : Query) :
    ReportsSession render fromStr launch query ↔
      query.resumeSessionId = none ∨ ∀ attempt, Produces fromStr query attempt →
        attempt = 0 ∨ (announced fromStr (query.attempts attempt)).isSome := by
  constructor
  · intro reports
    refine or_iff_not_imp_left.mpr fun resumes attempt produces => ?_
    refine or_iff_not_imp_left.mpr fun later => ?_
    rcases @sendQuery_of_produces ε render fromStr query attempt produces with
      ⟨settings, warnings, shown, -, whole, succeeded⟩
    rcases runCodexAttempt_endsInResult succeeded with ⟨before, fields, ends, -, -⟩
    have within : .result fields ∈ shown := by
      rw [ends]
      exact List.mem_append_right before List.mem_cons_self
    have delivered : .result fields ∈ sendQuery render fromStr query := by
      rw [whole]
      exact List.mem_append_right warnings within
    have wanted := (reports fields delivered).1 attempt produces
    have named := names_of_ok succeeded fields within
    rw [attemptSession, resumedId_attemptArgv, if_pos (Nat.pos_of_ne_zero later), named] at wanted
    cases session : announced fromStr (query.attempts attempt) with
    | some threadId => rfl
    | none =>
        rw [session, Option.none_or, Option.none_or] at wanted
        exact absurd wanted resumes
  · intro condition fields member
    refine ⟨?_, fun never => sendQuery_of_not_produces never fields member⟩
    intro attempt produces
    rcases @sendQuery_of_produces ε render fromStr query attempt produces with
      ⟨settings, warnings, shown, none, whole, succeeded⟩
    rw [whole] at member
    have within : .result fields ∈ shown := by
      rcases List.mem_append.mp member with early | late
      · cases none _ early
      · exact late
    rw [attemptSession, resumedId_attemptArgv, names_of_ok succeeded fields within]
    rcases condition with fresh | condition
    · rw [fresh, ite_self]
    · rcases condition attempt produces with rfl | announces
      · rw [if_neg (Nat.lt_irrefl 0)]
      · rw [Option.or_of_isSome announces, Option.or_of_isSome announces]

/-! ## A retry of a resumed thread -/

/-- The first process crashes and the second one closes its output, both without an event. -/
def silentProcess (attempt : Nat) : Process :=
  { stdout := [], exitCode := some (if attempt = 0 then 1 else 0) }

def resumedQuery : Query where
  mcp := none
  binaryPath := .ok none
  resumeSessionId := some "thread-old"
  model := none
  hasOutputFormat := false
  attempts attempt := { started := .ok (silentProcess attempt) }

def plainLaunch : Launch where
  rendering := { isAlphanumeric := Char.isAlphanum, formatNumber := fun _ => ['0'] }
  defaults := {}
  outputSchemaPath := none
  cwd := "/work"
  configOverrides := none

theorem resumedQuery_transient : Transient NdjsonStream.wordFromStr resumedQuery 0 :=
  ⟨"codex exec exited with code 1", rfl, rfl, by decide +kernel⟩

theorem resumedQuery_produces : Produces NdjsonStream.wordFromStr resumedQuery 1 where
  starts := ⟨nofun, ⟨none, rfl⟩, rfl⟩
  within := by decide
  before earlier behind := by
    have first : earlier = 0 := by omega
    subst first
    exact ⟨rfl, resumedQuery_transient⟩
  running := rfl
  succeeds := rfl

/-- The retry starts a new thread, and its result names the old one. -/
theorem resumedQuery_not_reportsSession :
    ¬ ReportsSession (fun _ => "") NdjsonStream.wordFromStr plainLaunch resumedQuery := by
  intro reports
  rcases @sendQuery_of_produces _ (fun _ => "") _ _ _ resumedQuery_produces with
    ⟨settings, warnings, shown, none, whole, succeeded⟩
  cases succeeded
  have member : streamIncomplete { resolvedThreadId := some "thread-old" } ∈
      sendQuery (fun _ => "") NdjsonStream.wordFromStr resumedQuery := by
    rw [whole]
    exact List.mem_append_right warnings List.mem_cons_self
  have named := (reports _ member).1 1 resumedQuery_produces
  rw [attemptSession, resumedId_attemptArgv] at named
  cases named

end Codex

end HarnessAgent
