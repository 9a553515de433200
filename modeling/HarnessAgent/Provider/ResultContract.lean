import HarnessAgent.Provider.ClaudeProvider
import HarnessAgent.Provider.CodexProvider
import HarnessAgent.Provider.OpenCodeProvider
import HarnessAgent.Provider.PiProvider

/-! # The result contract

A caller waits for one result, at the end of the stream. The Codex and OpenCode
providers keep to that. For the Claude and Pi providers it is said, in terms of the
configuration and of what the processes print, when a query does.
-/

namespace HarnessAgent

open Provider

namespace Claude

variable {ε : Type} (library : Library ε)

/-! ## The result event of an output -/

def events (items : List (NdjsonStream.Item ε)) : List Value :=
  items.filterMap fun item => match item with
    | .value event => some event
    | _ => none

def IsResultEvent (event : Value) : Prop :=
  event.getStr "type" = some "result"

/-- A result event that reports an error. An error flag on a successful result is none. -/
def ReportsError (event : Value) : Prop :=
  (event.get "is_error").bind Value.asBool = some true ∧ event.getStr "subtype" ≠ some "success"

structure ReadsToEnd (items : List (NdjsonStream.Item ε)) : Prop where
  noFailure : ∀ message, NdjsonStream.Item.io message ∉ items
  mapped : ∀ event ∈ events items, parseClaudeStreamJson library.render event ≠ none

def FinalResult (items : List (NdjsonStream.Item ε)) (event : Value) : Prop :=
  ∃ before after, events items = before ++ event :: after ∧
    (∀ other ∈ before, ¬ IsResultEvent other) ∧ IsResultEvent event ∧
    ∀ other ∈ after, parseClaudeStreamJson library.render other = some []

variable {library}

theorem noResult_assistantBlock (block : Value) : NoResult (assistantBlock block) := by
  unfold assistantBlock
  split
  · split
    · split
      · exact noResult_nil
      · exact noResult_singleton rfl
    · exact noResult_nil
  · split
    · exact noResult_singleton rfl
    · exact noResult_nil
  · exact noResult_nil

variable {chunks : List MessageChunk} {event : Value}

theorem noResult_parseClaudeStreamJson (other : ¬ IsResultEvent event)
    (parsed : parseClaudeStreamJson library.render event = some chunks) : NoResult chunks := by
  simp only [parseClaudeStreamJson] at parsed
  split at parsed
  · cases parsed
    intro chunk member
    obtain ⟨block, -, shown⟩ := List.mem_flatMap.mp member
    exact noResult_assistantBlock block chunk shown
  · split at parsed
    · split at parsed
      · cases parsed
        exact noResult_nil
      · cases parsed
        exact noResult_singleton rfl
    · cases parsed
      exact noResult_nil
  · cases parsed
    exact noResult_singleton rfl
  · next result => exact absurd result other
  · split at parsed
    · cases parsed
      exact noResult_nil
    · obtain ⟨toolOutput, -, rfl⟩ := Option.map_eq_some_iff.mp parsed
      exact noResult_singleton rfl
  · cases parsed
    exact noResult_nil

theorem parseClaudeStreamJson_of_result (result : IsResultEvent event) :
    parseClaudeStreamJson library.render event = some [resultChunk event] := by
  unfold IsResultEvent at result
  simp [parseClaudeStreamJson, result]

variable {rest : List (NdjsonStream.Item ε)}

theorem readsToEnd_cons_value :
    ReadsToEnd library (.value event :: rest) ↔
      parseClaudeStreamJson library.render event ≠ none ∧ ReadsToEnd library rest := by
  constructor
  · intro whole
    refine ⟨whole.mapped event (by simp [events]), ?_, ?_⟩
    · intro message member
      exact whole.noFailure message (List.mem_cons_of_mem _ member)
    · intro other member
      exact whole.mapped other (List.mem_cons_of_mem _ member)
  · rintro ⟨first, others⟩
    constructor
    · intro message member
      rcases List.mem_cons.mp member with same | later
      · cases same
      · exact others.noFailure message later
    · intro other member
      rcases List.mem_cons.mp member with rfl | later
      · exact first
      · exact others.mapped other later

theorem readsToEnd_cons_parseError {lineNo : Nat} {line : String} {source : ε} :
    ReadsToEnd library (.parseError lineNo line source :: rest) ↔ ReadsToEnd library rest := by
  constructor
  · intro whole
    refine ⟨?_, whole.mapped⟩
    intro message member
    exact whole.noFailure message (List.mem_cons_of_mem _ member)
  · intro others
    refine ⟨?_, others.mapped⟩
    intro message member
    rcases List.mem_cons.mp member with same | later
    · cases same
    · exact others.noFailure message later

theorem eventChunks_ne_none_iff (items : List (NdjsonStream.Item ε)) :
    eventChunks library items ≠ none ↔ ReadsToEnd library items := by
  induction items with
  | nil =>
      apply iff_of_true (by simp [eventChunks])
      exact ⟨fun _ => List.not_mem_nil, fun _ member => by cases member⟩
  | cons item rest induction =>
      cases item with
      | value event =>
          rw [readsToEnd_cons_value, ← induction]
          cases parsed : parseClaudeStreamJson library.render event with
          | none => simp [eventChunks, parsed]
          | some more =>
              cases others : eventChunks library rest with
              | none => simp [eventChunks, parsed, others]
              | some later => simp [eventChunks, parsed, others]
      | io message =>
          apply iff_of_false (by simp [eventChunks])
          intro whole
          exact whole.noFailure message (by simp)
      | parseError lineNo line source =>
          rw [readsToEnd_cons_parseError]
          exact induction

theorem eventChunks_eq_nil_iff (mapped : eventChunks library items = some chunks) :
    chunks = [] ↔
      ∀ event ∈ events items, parseClaudeStreamJson library.render event = some [] := by
  induction items generalizing chunks with
  | nil =>
      cases mapped
      simp [events]
  | cons item rest induction =>
      cases item with
      | value event =>
          rcases eventChunks_value_eq_some.mp mapped with ⟨more, later, parsed, others, rfl⟩
          rw [List.append_eq_nil_iff, induction others]
          simp [events, parsed]
      | io message => cases mapped
      | parseError lineNo line source => exact induction mapped

variable {normal : Prop}

theorem endsInResult_resultChunk_cons {later : List MessageChunk} :
    EndsInResult normal (resultChunk event :: later) ↔
      later = [] ∧ (¬ normal → ReportsError event) := by
  unfold resultChunk
  rw [endsInResult_result_cons]
  simp only [ReportsError]
  split
  · next reports => simp [reports]
  · next reports => simp [reports]

theorem finalResult_cons_result {final : Value} (result : IsResultEvent event) :
    FinalResult library (.value event :: rest) final ↔
      final = event ∧
        ∀ other ∈ events rest, parseClaudeStreamJson library.render other = some [] := by
  constructor
  · rintro ⟨before, after, whole, early, -, silent⟩
    cases before with
    | nil =>
        cases whole
        exact ⟨rfl, silent⟩
    | cons first more =>
        obtain ⟨rfl, -⟩ := List.cons.inj whole
        exact absurd result (early event List.mem_cons_self)
  · rintro ⟨rfl, silent⟩
    exact ⟨[], events rest, rfl, by simp, result, silent⟩

theorem finalResult_cons_other {final : Value} (other : ¬ IsResultEvent event) :
    FinalResult library (.value event :: rest) final ↔ FinalResult library rest final := by
  constructor
  · rintro ⟨before, after, whole, early, result, silent⟩
    cases before with
    | nil =>
        cases whole
        exact absurd result other
    | cons first more =>
        obtain ⟨rfl, remaining⟩ := List.cons.inj whole
        refine ⟨more, after, remaining, ?_, result, silent⟩
        intro earlier member
        exact early earlier (List.mem_cons_of_mem _ member)
  · rintro ⟨before, after, whole, early, result, silent⟩
    refine ⟨event :: before, after, congrArg (event :: ·) whole, ?_, result, silent⟩
    intro earlier member
    rcases List.mem_cons.mp member with rfl | more
    · exact other
    · exact early earlier more

theorem eventChunks_endsInResult (mapped : eventChunks library items = some chunks) :
    EndsInResult normal chunks ↔
      ∃ event, FinalResult library items event ∧ (¬ normal → ReportsError event) := by
  induction items generalizing chunks with
  | nil =>
      cases mapped
      simp [FinalResult, events, nil_not_endsInResult]
  | cons item rest induction =>
      cases item with
      | value event =>
          rcases eventChunks_value_eq_some.mp mapped with ⟨more, later, parsed, others, rfl⟩
          by_cases result : IsResultEvent event
          · rw [parseClaudeStreamJson_of_result result, Option.some.injEq] at parsed
            rw [← parsed, List.singleton_append, endsInResult_resultChunk_cons,
              eventChunks_eq_nil_iff others]
            simp [finalResult_cons_result result, and_assoc]
          · rw [endsInResult_append_iff (noResult_parseClaudeStreamJson result parsed)]
            simp only [finalResult_cons_other result]
            exact induction others
      | io message => cases mapped
      | parseError lineNo line source => exact induction mapped

/-! ## Failures of an attempt -/

inductive Fault
  | panic
  | io (message : String)

def firstFault (library : Library ε) : List (NdjsonStream.Item ε) → Option Fault
  | [] => none
  | .value event :: rest =>
      if parseClaudeStreamJson library.render event = none then some .panic
      else firstFault library rest
  | .io message :: _ => some (.io message)
  | .parseError _ _ _ :: rest => firstFault library rest

def exitText (process : Process) (code : Int) : String :=
  "process exited with code " ++ toString code ++
    if stderrContext process = "" then "" else " (stderr: " ++ stderrContext process ++ ")"

def outputFailure (library : Library ε) (process : Process)
    (items : List (NdjsonStream.Item ε)) : Option String :=
  match firstFault library items with
  | some .panic => none
  | some (.io message) =>
      some ("I/O reading stdout (stderr: " ++ stderrContext process ++ "): " ++ message)
  | none => (process.exitCode.filter (· ≠ 0)).map (exitText process)

/-- The text an attempt fails with: of its start, of a silent process, of its first
line, of the first failed read, or of its exit. -/
def failureText (library : Library ε) (timeoutMs : Nat) (attempt : Attempt) : Option String :=
  match attempt.started with
  | .error message => some message
  | .ok process =>
      if process.silent then some (firstEventTimeoutText timeoutMs)
      else
        let items := NdjsonStream.fromByteStream library.fromStr process.stdout
        match items.head? with
        | some (.io message) => some ("stream error: " ++ streamErrorText library (.io message))
        | some (.parseError lineNo line source) =>
            some ("stream error: " ++ streamErrorText library (.parseError lineNo line source))
        | _ => outputFailure library process items

variable {process : Process}

theorem checkExit_of_exitCode (exited : process.exitCode = some code) (nonzero : code ≠ 0) :
    checkExit process chunks = .failed (exitText process code) := by
  simp only [checkExit, exited]
  rw [if_pos nonzero]
  rfl

theorem checkExit_eq_failed {message : String} :
    checkExit process chunks = .failed message ↔
      (process.exitCode.filter (· ≠ 0)).map (exitText process) = some message := by
  cases exited : process.exitCode with
  | none => simp [checkExit, exited]
  | some code =>
      by_cases zero : code = 0
      · simp [checkExit, exited, zero]
      · rw [checkExit_of_exitCode exited zero]
        simp [zero]

/-- The items of an output that are read before the query is found cancelled. -/
def itemsRead (process : Process) :
    Nat → List (NdjsonStream.Item ε) → List (NdjsonStream.Item ε)
  | _, [] => []
  | index, item :: rest =>
      if process.cancelledAt index then [] else item :: itemsRead process (index + 1) rest

theorem itemsRead_of_running (running : ∀ index, process.cancelledAt index = false) (index : Nat)
    (items : List (NdjsonStream.Item ε)) : itemsRead process index items = items := by
  induction items generalizing index with
  | nil => rfl
  | cons item rest induction =>
      rw [itemsRead, running, if_neg Bool.false_ne_true, induction]

theorem eventLoop_eq_failed (index : Nat) (chunks : List MessageChunk)
    (items : List (NdjsonStream.Item ε)) (message : String) :
    eventLoop library process index chunks items = .failed message ↔
      outputFailure library process (itemsRead process index items) = some message := by
  induction items generalizing index chunks with
  | nil => exact checkExit_eq_failed
  | cons item rest induction =>
      rw [eventLoop.eq_def, itemsRead]
      dsimp only
      by_cases cancelled : process.cancelledAt index = true
      · rw [if_pos cancelled, if_pos cancelled]
        exact checkExit_eq_failed
      · rw [if_neg cancelled, if_neg cancelled]
        cases item with
        | value event =>
            cases parsed : parseClaudeStreamJson library.render event with
            | none => simp [outputFailure, firstFault, parsed]
            | some more =>
                have same : outputFailure library process
                    (.value event :: itemsRead process (index + 1) rest) =
                      outputFailure library process (itemsRead process (index + 1) rest) := by
                  simp only [outputFailure, firstFault, parsed, reduceCtorEq, if_false]
                simp only [same, parsed]
                exact induction _ _
        | io message => simp [outputFailure, firstFault]
        | parseError lineNo line source => exact induction _ _

theorem runSingleAttempt_eq_failed {timeoutMs : Nat} {message : String}
    (running : ∀ process, attempt.started = .ok process →
      ∀ index, process.cancelledAt index = false) :
    runSingleAttempt library timeoutMs attempt = .failed message ↔
      failureText library timeoutMs attempt = some message := by
  unfold runSingleAttempt failureText
  cases started : attempt.started with
  | error message => simp
  | ok process =>
      by_cases silent : process.silent = true
      · simp [silent]
      · simp only [silent]
        cases items : NdjsonStream.fromByteStream library.fromStr process.stdout with
        | nil => exact checkExit_eq_failed
        | cons item rest =>
            cases item with
            | value event =>
                cases parsed : parseClaudeStreamJson library.render event with
                | none => simp [outputFailure, firstFault, parsed]
                | some more =>
                    have same : outputFailure library process (.value event :: rest) =
                        outputFailure library process rest := by
                      simp only [outputFailure, firstFault, parsed, reduceCtorEq, if_false]
                    simp only [List.head?_cons, same, parsed, Bool.false_eq_true, if_false]
                    rw [eventLoop_eq_failed, itemsRead_of_running (running process started)]
            | io message => simp
            | parseError lineNo line source => simp

/-! ## Queries -/

def Repeats (library : Library ε) (timeoutMs : Nat) (attempt : Attempt) : Prop :=
  ∃ message, failureText library timeoutMs attempt = some message ∧
    (classifyAndEnrichError message [] false).shouldRetry = true

/-- An attempt whose process starts, speaks in time, begins with a line that parses, is
read to its end and exits with zero, and whose output has a final result. -/
structure Attempt.AnswersWith (library : Library ε) (attempt : Attempt) (event : Value) : Prop where
  process : ∃ process, attempt.started = .ok process ∧ process.silent = false ∧
    (∀ code, process.exitCode = some code → code = 0) ∧
    (∀ item, (NdjsonStream.fromByteStream library.fromStr process.stdout).head? = some item →
      ∃ event, item = .value event) ∧
    ReadsToEnd library (NdjsonStream.fromByteStream library.fromStr process.stdout) ∧
    FinalResult library (NdjsonStream.fromByteStream library.fromStr process.stdout) event

structure Query.Answers (library : Library ε) (query : Query) (acceptable : Value → Prop) :
    Prop where
  cliFound : ∃ path, query.cliPath = .ok path
  configured : query.mcpConfig = .ok ()
  attempted : ∃ repeated ≤ maxSubprocessRetries,
    (∀ earlier < repeated, Repeats library query.timeoutMs (query.attempts earlier)) ∧
    ∃ event, (query.attempts repeated).AnswersWith library event ∧ acceptable event

theorem retried_iff_repeats (running : NotCancelled query) (attempt : Nat) :
    Retried library query.timeoutMs (query.attempts attempt) ↔
      Repeats library query.timeoutMs (query.attempts attempt) := by
  apply exists_congr
  intro message
  rw [runSingleAttempt_eq_failed (running.during attempt)]

theorem cleanRun_endsInResult {attempt : Attempt} :
    (∃ chunks, CleanRun library attempt chunks ∧ EndsInResult normal chunks) ↔
      ∃ event, attempt.AnswersWith library event ∧ (¬ normal → ReportsError event) := by
  constructor
  · rintro ⟨chunks, ⟨process, started, heard, zero, first, mapped⟩, ends⟩
    obtain ⟨event, final, reported⟩ := (eventChunks_endsInResult mapped).mp ends
    have whole := (eventChunks_ne_none_iff _).mp (Option.ne_none_iff_exists'.mpr ⟨_, mapped⟩)
    exact ⟨event, ⟨process, started, heard, zero, first, whole, final⟩, reported⟩
  · rintro ⟨event, ⟨process, started, heard, zero, first, whole, final⟩, reported⟩
    obtain ⟨chunks, mapped⟩ := Option.ne_none_iff_exists'.mp ((eventChunks_ne_none_iff _).mpr whole)
    exact ⟨chunks, ⟨process, started, heard, zero, first, mapped⟩,
      (eventChunks_endsInResult mapped).mpr ⟨event, final, reported⟩⟩

theorem sendQuery_iff_answers (running : NotCancelled query) (normal : Prop) :
    EndsInResult normal (sendQuery library query) ↔
      query.Answers library fun event => ¬ normal → ReportsError event := by
  have attempts : RunsCleanly library query normal maxSubprocessRetries 0 ↔
      ∃ repeated ≤ maxSubprocessRetries,
        (∀ earlier < repeated, Repeats library query.timeoutMs (query.attempts earlier)) ∧
        ∃ event, (query.attempts repeated).AnswersWith library event ∧
          (¬ normal → ReportsError event) := by
    unfold RunsCleanly
    simp only [Nat.zero_add, retried_iff_repeats running, cleanRun_endsInResult]
  rw [sendQuery_endsInResult running normal, attempts]
  constructor
  · rintro ⟨cliFound, configured, attempted⟩
    exact ⟨cliFound, configured, attempted⟩
  · rintro ⟨cliFound, configured, attempted⟩
    exact ⟨cliFound, configured, attempted⟩

def Query.FinishesNormally (library : Library ε) (query : Query) : Prop :=
  query.Answers library fun event => ¬ ReportsError event

end Claude

namespace Pi

variable {render : Value → String} {fromStr : String → Option Value}

/-! ## The start of a session -/

structure Session.Starts (session : Session) : Prop where
  spawned : session.spawned = .ok ()
  stdin : session.stdinTaken = true
  stdout : session.stdoutTaken = true
  asked : session.stateWritten = true
  serialized : session.promptSerialized = .ok ()
  prompted : session.promptWritten = true

structure Query.Launches (query : Query) (argv : List String) : Prop where
  shim : query.shim = .ok ()
  model : ∃ raw, query.model = some raw ∧ parsePiModelRef raw ≠ none
  argv : findPiArgv query.cliVariable = .ok argv

def Session.agentEnd (fromStr : String → Option Value) (session : Session) :
    Option (Option PiAssistantMessage) :=
  firstAgentEnd fromStr (getStateLoop fromStr getStateAttempts session.lines).2

def Query.Concludes (fromStr : String → Option Value) (query : Query) : Prop :=
  ∀ argv, query.Launches argv → argv ≠ [] ∧
    (query.session.Starts → query.session.agentEnd fromStr ≠ none)

def Query.FinishesNormally (fromStr : String → Option Value) (query : Query) : Prop :=
  (∃ argv, query.Launches argv) ∧ query.session.Starts ∧
    ∃ last, query.session.agentEnd fromStr = some last ∧ EndedWell last

structure NotCancelled (query : Query) : Prop where
  before : query.cancelledBefore = false
  during : ∀ index, query.session.cancelledAt index = false

theorem runPiRpcSession_of_not_starts {session : Session} {cliVariable : Option String}
    {first : String} {rest : List String} (found : findPiArgv cliVariable = .ok (first :: rest))
    (fails : ¬ session.Starts) :
    ∃ subtype errors,
      runPiRpcSession render fromStr cliVariable session = [errorResult subtype errors] := by
  simp only [runPiRpcSession, found]
  split
  · exact ⟨_, _, rfl⟩
  rename_i spawned
  split
  · exact ⟨_, _, rfl⟩
  rename_i stdin
  split
  · exact ⟨_, _, rfl⟩
  rename_i stdout
  split
  · exact ⟨_, _, rfl⟩
  rename_i asked
  split
  · exact ⟨_, _, rfl⟩
  rename_i serialized
  split
  · exact ⟨_, _, rfl⟩
  rename_i prompted
  have starts : session.Starts :=
    ⟨spawned, by simpa using stdin, by simpa using stdout, by simpa using asked, serialized,
      by simpa using prompted⟩
  exact absurd starts fails

theorem runPiRpcSession_of_starts (found : findPiArgv cliVariable = .ok (first :: rest))
    (starts : session.Starts) :
    runPiRpcSession render fromStr cliVariable session =
      eventLoop render fromStr session (getStateLoop fromStr getStateAttempts session.lines).1 0 ""
        (getStateLoop fromStr getStateAttempts session.lines).2 := by
  simp [runPiRpcSession, found, starts.spawned, starts.stdin, starts.stdout, starts.asked,
    starts.serialized, starts.prompted]

theorem session_endsInResult (running : ∀ index, session.cancelledAt index = false)
    (found : findPiArgv cliVariable = .ok (first :: rest)) (normal : Prop) :
    EndsInResult normal (runPiRpcSession render fromStr cliVariable session) ↔
      (session.Starts → ∃ last, session.agentEnd fromStr = some last ∧
        (¬ normal → ¬ EndedWell last)) := by
  by_cases starts : session.Starts
  · rw [runPiRpcSession_of_starts found starts, eventLoop_endsInResult running]
    exact ⟨fun ends _ => ends, fun ends => ends starts⟩
  · obtain ⟨subtype, errors, reported⟩ :=
      @runPiRpcSession_of_not_starts render fromStr session cliVariable first rest found starts
    rw [reported]
    exact iff_of_true (endsInResult_errorResult ..) (fun again => absurd again starts)

theorem noResult_warnings (warnings : List String) :
    NoResult (warnings.map fun warning => MessageChunk.system ("⚠️ " ++ warning)) := by
  intro chunk member
  obtain ⟨warning, -, rfl⟩ := List.mem_map.mp member
  rfl

variable {query : Query}

theorem sendQuery_of_launches (running : query.cancelledBefore = false)
    (launches : query.Launches argv) :
    sendQuery render fromStr query =
      (query.warnings.map fun warning => MessageChunk.system ("⚠️ " ++ warning)) ++
        runPiRpcSession render fromStr query.cliVariable query.session := by
  obtain ⟨raw, model, valid⟩ := launches.model
  obtain ⟨reference, parsed⟩ := Option.ne_none_iff_exists'.mp valid
  simp only [sendQuery, launches.shim, model, parsed, running, Bool.false_eq_true, if_false]

theorem sendQuery_of_not_launches (running : query.cancelledBefore = false)
    (never : ∀ argv, ¬ query.Launches argv) (normal : Prop) :
    EndsInResult normal (sendQuery render fromStr query) := by
  unfold sendQuery
  split
  · exact endsInResult_errorResult ..
  rename_i shim
  split
  · exact endsInResult_errorResult ..
  rename_i raw model
  split
  · exact endsInResult_errorResult ..
  rename_i reference parsed
  rw [endsInResult_append_iff (noResult_warnings _), running, if_neg Bool.false_ne_true]
  cases found : findPiArgv query.cliVariable with
  | error subtype =>
      simp only [runPiRpcSession, found]
      exact endsInResult_errorResult ..
  | ok argv =>
      have valid : parsePiModelRef raw ≠ none := by
        rw [parsed]
        exact Option.some_ne_none _
      exact absurd ⟨shim, ⟨raw, model, valid⟩, found⟩ (never argv)

theorem sendQuery_iff_concludes (running : NotCancelled query) (normal : Prop) :
    EndsInResult normal (sendQuery render fromStr query) ↔
      ∀ argv, query.Launches argv → argv ≠ [] ∧
        (query.session.Starts → ∃ last, query.session.agentEnd fromStr = some last ∧
          (¬ normal → ¬ EndedWell last)) := by
  by_cases launched : ∃ argv, query.Launches argv
  · obtain ⟨argv, launches⟩ := launched
    have only : ∀ other, query.Launches other ↔ other = argv := by
      intro other
      constructor
      · intro again
        exact Except.ok.inj (again.argv.symm.trans launches.argv)
      · intro same
        exact same ▸ launches
    rw [sendQuery_of_launches running.before launches,
      endsInResult_append_iff (noResult_warnings _)]
    simp only [only, forall_eq]
    cases argv with
    | nil => simp [runPiRpcSession, launches.argv, nil_not_endsInResult]
    | cons first rest =>
        rw [session_endsInResult running.during launches.argv]
        simp
  · have never : ∀ argv, ¬ query.Launches argv := not_exists.mp launched
    apply iff_of_true (sendQuery_of_not_launches running.before never normal)
    intro argv launches
    exact absurd launches (never argv)

end Pi

/-! ## The Claude and Pi providers -/

/-- A query of the Claude provider keeps to the contract exactly if it answers: the CLI
and the configuration are found, and an attempt within the retries runs to its end
and has a final result. A query of the Pi provider keeps to it exactly if it
concludes: once launched, it names a program and reads the end of the agent. -/
theorem resultContract_iff {ε : Type} (library : Claude.Library ε) (claude : Claude.Query)
    (claudeRunning : Claude.NotCancelled claude) (render : Value → String)
    (fromStr : String → Option Value) (pi : Pi.Query) (piRunning : Pi.NotCancelled pi) :
    (EndsInResult (claude.FinishesNormally library) (Claude.sendQuery library claude) ↔
      claude.Answers library fun _ => True) ∧
    (EndsInResult (pi.FinishesNormally fromStr) (Pi.sendQuery render fromStr pi) ↔
      pi.Concludes fromStr) := by
  constructor
  · rw [Claude.sendQuery_iff_answers claudeRunning]
    constructor
    · rintro ⟨cliFound, configured, repeated, within, earlier, event, answers, -⟩
      exact ⟨cliFound, configured, repeated, within, earlier, event, answers, trivial⟩
    · rintro ⟨cliFound, configured, repeated, within, earlier, event, answers, -⟩
      refine ⟨cliFound, configured, repeated, within, earlier, event, answers, ?_⟩
      -- A result without an error is a normal end.
      intro abnormal
      by_contra fine
      exact abnormal ⟨cliFound, configured, repeated, within, earlier, event, answers, fine⟩
  · rw [Pi.sendQuery_iff_concludes piRunning]
    constructor
    · intro concludes argv launches
      obtain ⟨named, ends⟩ := concludes argv launches
      refine ⟨named, fun starts => ?_⟩
      obtain ⟨last, ended, -⟩ := ends starts
      rw [ended]
      exact Option.some_ne_none last
    · intro concludes argv launches
      obtain ⟨named, ends⟩ := concludes argv launches
      refine ⟨named, fun starts => ?_⟩
      obtain ⟨last, ended⟩ := Option.ne_none_iff_exists'.mp (ends starts)
      exact ⟨last, ended, fun abnormal well =>
        abnormal ⟨⟨argv, launches⟩, starts, last, ended, well⟩⟩

def resultLine : String := "\x7b\"type\":\"result\"\x7d"

def stateLine : String := "\x7b\"type\":\"response\",\"command\":\"get_state\"\x7d"

def agentEndLine : String := "\x7b\"type\":\"agent_end\"\x7d"

def lineFromStr (text : String) : Except String Value :=
  if text = resultLine then .ok (.object [("type", .string "result")])
  else if text = stateLine then
    .ok (.object [("type", .string "response"), ("command", .string "get_state")])
  else if text = agentEndLine then .ok (.object [("type", .string "agent_end")])
  else .error "expected value at line 1 column 1"

def lineLibrary : Claude.Library String where
  fromStr := lineFromStr
  render := fun _ => ""
  showError := id
  quote := id

def answeredQuery : Claude.Query where
  cliPath := .ok none
  mcpConfig := .ok ()
  nodeConfigWarnings := []
  timeoutMs := 60000
  attempts := fun _ => { started := .ok { stdout := [.ok (Text.utf8 resultLine.toList)] } }

def concludedQuery : Pi.Query where
  model := some "google/gemini-2.5-pro"
  cliVariable := some "pi"
  session := { lines := [.ok stateLine, .ok agentEndLine] }

theorem resultContract_iff_lines :
    EndsInResult (answeredQuery.FinishesNormally lineLibrary)
      (Claude.sendQuery lineLibrary answeredQuery) ∧
    EndsInResult (concludedQuery.FinishesNormally fun text => (lineFromStr text).toOption)
      (Pi.sendQuery (fun _ => "") (fun text => (lineFromStr text).toOption) concludedQuery) := by
  have claudeRunning : Claude.NotCancelled answeredQuery := by
    refine ⟨fun _ => rfl, ?_, fun _ => rfl⟩
    intro attempt process started index
    cases started
    rfl
  have both := resultContract_iff lineLibrary answeredQuery claudeRunning (fun _ => "")
    (fun text => (lineFromStr text).toOption) concludedQuery ⟨rfl, fun _ => rfl⟩
  constructor
  · apply both.1.mpr
    have renders : NdjsonStream.Renders lineFromStr resultLine
        (.object [("type", .string "result")]) :=
      ⟨rfl, Text.forall_of_all (by decide), by decide, by decide⟩
    have items : NdjsonStream.fromByteStream lineFromStr [.ok (Text.utf8 resultLine.toList)] =
        [.value (.object [("type", .string "result")])] :=
      @NdjsonStream.fromByteStream_document _ lineFromStr
        ⟨[], some (resultLine, .object [("type", .string "result")])⟩
        (by
          intro entry member
          rw [List.mem_singleton.mp member]
          exact renders) [Text.utf8 resultLine.toList] rfl
    refine ⟨⟨none, rfl⟩, rfl, 0, Nat.zero_le _, by simp, .object [("type", .string "result")], ?_,
      trivial⟩
    refine ⟨_, rfl, rfl, ?_, ?_, ?_, ?_⟩
    · intro code exited
      cases exited
      rfl
    · intro item first
      rw [show lineLibrary.fromStr = lineFromStr from rfl, items] at first
      cases first
      exact ⟨_, rfl⟩
    · rw [show lineLibrary.fromStr = lineFromStr from rfl, items]
      refine ⟨by simp, ?_⟩
      intro event member
      rw [List.mem_singleton.mp member]
      exact Option.some_ne_none _
    · rw [show lineLibrary.fromStr = lineFromStr from rfl, items]
      exact ⟨[], [], rfl, by simp, rfl, by simp⟩
  · apply both.2.mpr
    rintro argv ⟨-, -, found⟩
    cases found
    refine ⟨by decide, fun _ => ?_⟩
    decide +kernel

def withoutCli : Claude.Query where
  cliPath := .error "Claude Code CLI not found"
  mcpConfig := .ok ()
  nodeConfigWarnings := []
  timeoutMs := 60000
  attempts := fun _ => { started := .error "not reached" }

def cutShort : Pi.Query where
  model := some "google/gemini-2.5-pro"
  cliVariable := some "pi"
  session := { lines := [.ok stateLine] }

/-- Both streams are empty, although neither query is cancelled. -/
theorem resultContract_broken :
    (Claude.NotCancelled withoutCli ∧
      ¬ EndsInResult (withoutCli.FinishesNormally lineLibrary)
        (Claude.sendQuery lineLibrary withoutCli)) ∧
    (Pi.NotCancelled cutShort ∧
      ¬ EndsInResult (cutShort.FinishesNormally fun text => (lineFromStr text).toOption)
        (Pi.sendQuery (fun _ => "") (fun text => (lineFromStr text).toOption) cutShort)) := by
  constructor
  · refine ⟨⟨fun _ => rfl, ?_, fun _ => rfl⟩, nil_not_endsInResult _⟩
    intro attempt process started
    cases started
  · refine ⟨⟨rfl, fun _ => rfl⟩, ?_⟩
    have silent : Pi.sendQuery (fun _ => "") (fun text => (lineFromStr text).toOption) cutShort =
        [] := by
      decide +kernel
    rw [silent]
    exact nil_not_endsInResult _

/-! ## The Codex and OpenCode providers -/

/-- A query of the Codex provider that is not cancelled has exactly one result, at its
end; cancelled, it may have none, and never has a second one behind a retried
attempt. A query of the OpenCode provider has its result in any case. -/
theorem codex_openCode_endInResult {ε : Type} (render : Value → String)
    (fromStr : String → Except ε Value) :
    (∀ query, Codex.NotCancelled query →
      EndsInResult True (Codex.sendQuery render fromStr query)) ∧
    (∀ query, NoResult (Codex.sendQuery render fromStr query) ∨
      EndsInResult True (Codex.sendQuery render fromStr query)) ∧
    ∀ query, EndsInResult True (OpenCode.sendQuery render query) :=
  ⟨fun _ running => Codex.sendQuery_endsInResult running, Codex.sendQuery_atMostOne,
    OpenCode.sendQuery_endsInResult⟩

def crashedQuery : Codex.Query where
  mcp := some (.ok ["TOKEN"])
  binaryPath := .ok none
  resumeSessionId := none
  model := none
  hasOutputFormat := false
  attempts := fun attempt =>
    { started := .ok { stdout := [], exitCode := some (if attempt = 0 then 1 else 0) } }

theorem codex_openCode_endInResult_crashed :
    Codex.NotCancelled crashedQuery ∧
      EndsInResult True (Codex.sendQuery (fun _ => "") lineFromStr crashedQuery) := by
  have running : Codex.NotCancelled crashedQuery := ⟨rfl, fun _ => rfl, fun _ => rfl⟩
  exact ⟨running, (codex_openCode_endInResult (fun _ => "") lineFromStr).1 crashedQuery running⟩

end HarnessAgent
