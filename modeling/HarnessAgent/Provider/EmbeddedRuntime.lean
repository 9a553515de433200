import HarnessAgent.Foundation.EventRun
import HarnessAgent.Provider.OpenCodeProvider

/-! # The embedded OpenCode server

All queries of a program share one server, which the first of them starts. Acquiring
counts a reference to it and releasing takes one back; the server is to be terminated
with its last reference.
-/

namespace HarnessAgent

namespace OpenCode

open Provider

/-! ## Starting the server -/

def startTimeoutMs : Nat := 5000

def startMaxRetries : Nat := 3

def isPortBindConflict (message : String) : Bool :=
  message.mentionsAny ["eaddrinuse", "address already in use", "failed to start server on port",
    "port 4096"]

def isShown (character : Char) : Bool :=
  !Text.isWhitespace character

/-- The address in `on\s+(https?://\S+)`, matched at the start of a text. -/
def listenUrlHere (text : List Char) : Option (List Char) := do
  let afterOn ← Text.afterLiteral "on".toList text
  let url := afterOn.dropWhile Text.isWhitespace
  let host ← (Text.afterLiteral "http://".toList url).or (Text.afterLiteral "https://".toList url)
  if url.length = afterOn.length ∨ host.takeWhile isShown = [] then none
  else some (url.takeWhile isShown)

def listenUrl : List Char → Option (List Char)
  | [] => none
  | character :: rest => (listenUrlHere (character :: rest)).or (listenUrl rest)

def urlWord (line : List Char) : Option (List Char) :=
  (line.splitOnP Text.isWhitespace).find? fun word => "http".toList.isPrefixOf word

def trimSlashes (url : List Char) : List Char :=
  (url.reverse.dropWhile (· = '/')).reverse

def announcedUrl (line : String) : Option String :=
  if line.mentions "opencode server listening" then
    ((listenUrl line.toList).or (urlWord line.toList)).map fun url => String.ofList (trimSlashes url)
  else none

inductive StartAttempt
  | configFailed (message : String)
  | tempdirFailed (message : String)
  | binaryNotFound (message : String)
  | spawnFailed (message : String)
  | noStdout
  /-- The lines of its output up to the time limit or up to the end, and what it then
  has written to standard error. -/
  | spawned (stdout : List String) (timedOut : Bool) (stderr : String)

/-- A start that failed; only a missing binary is not tried again. -/
structure StartFailure where
  error : RuntimeError
  retryable : Bool := true

section

-- The port in an address, as the library for addresses reads it.
variable (extractPort : String → Option Nat)

def startOnce : StartAttempt → Except StartFailure String
  | .configFailed message => .error { error := .spawnFailed ("config serialize: " ++ message) }
  | .tempdirFailed message => .error { error := .spawnFailed ("tempdir: " ++ message) }
  | .binaryNotFound message =>
      .error {
        error := .spawnFailed ("opencode binary not found on PATH: " ++ message)
        retryable := false }
  | .spawnFailed message => .error { error := .spawnFailed message }
  | .noStdout => .error { error := .spawnFailed "failed to capture stdout" }
  | .spawned stdout timedOut stderr =>
      match stdout.findSome? announcedUrl with
      | some serverUrl =>
          if (extractPort serverUrl).isNone && !"http".toList.isPrefixOf serverUrl.toList then
            .error { error := .urlParseFailed serverUrl }
          else .ok serverUrl
      | none =>
          if timedOut then .error { error := .startupTimeout startTimeoutMs }
          else if isPortBindConflict stderr then .error { error := .portConflict }
          else if stderr ≠ "" then .error { error := .processExited stderr }
          else .error { error := .processExited "stdout closed before server ready" }

def startLoop (tries : Nat → StartAttempt) :
    (left attempt : Nat) → (lastErr : RuntimeError) → Except RuntimeError String
  | 0, _, lastErr => .error lastErr
  | left + 1, attempt, _ =>
      match startOnce extractPort (tries attempt) with
      | .ok serverUrl => .ok serverUrl
      | .error failure =>
          if failure.retryable then startLoop tries left (attempt + 1) failure.error
          else .error failure.error

/-! ## References to the server -/

structure EmbeddedRuntimeState where
  serverUrl : String
  /-- An unsigned number of 32 bits. -/
  refCount : Nat
  /-- The process of the server. -/
  child : Nat
  deriving DecidableEq

/-- The cell that all queries share, and the processes of servers. -/
structure Runtime where
  cell : Option EmbeddedRuntimeState := none
  /-- How many processes have been started so far; they are numbered. -/
  spawned : Nat := 0
  running : List Nat := []

namespace Runtime

/-- The count of references; without a server there are none. -/
def refCount (runtime : Runtime) : Nat :=
  (runtime.cell.map EmbeddedRuntimeState.refCount).getD 0

end Runtime

structure AcquiredRuntime where
  serverUrl : String
  /-- The process at that address. -/
  child : Nat

/-- A server with references is handed out again; the count wraps around, as in a
release build. -/
def acquireEmbeddedRuntime (aborted : Bool) (tries : Nat → StartAttempt) (runtime : Runtime) :
    Except RuntimeError AcquiredRuntime × Runtime :=
  if aborted then (.error .aborted, runtime)
  else
    match runtime.cell.filter fun state => 0 < state.refCount with
    | some state =>
        (.ok { serverUrl := state.serverUrl, child := state.child },
          { runtime with cell := some { state with refCount := (state.refCount + 1) % 2 ^ 32 } })
    | none =>
        match startLoop extractPort tries startMaxRetries 0 .maxRetriesExceeded with
        | .error error => (.error error, runtime)
        | .ok serverUrl =>
            (.ok { serverUrl, child := runtime.spawned },
              { cell := some { serverUrl, refCount := 1, child := runtime.spawned }
                spawned := runtime.spawned + 1
                running := runtime.spawned :: runtime.running })

/-- No query calls this. -/
def releaseEmbeddedRuntimeForUrl (serverUrl : String) (runtime : Runtime) : Runtime :=
  match runtime.cell with
  | none => runtime
  | some state =>
      let refCount :=
        if state.serverUrl = serverUrl ∧ 0 < state.refCount then state.refCount - 1
        else state.refCount
      if refCount = 0 then
        { runtime with cell := none, running := runtime.running.filter (· ≠ state.child) }
      else { runtime with cell := some { state with refCount } }

variable {extractPort}

theorem acquireEmbeddedRuntime_of_some {runtime : Runtime} (present : runtime.cell = some state)
    (referenced : 0 < state.refCount) (tries : Nat → StartAttempt) :
    acquireEmbeddedRuntime extractPort false tries runtime =
      (.ok { serverUrl := state.serverUrl, child := state.child },
        { runtime with cell := some { state with refCount := (state.refCount + 1) % 2 ^ 32 } }) := by
  have kept : (some state).filter (fun state => 0 < state.refCount) = some state :=
    Option.filter_eq_some_iff.mpr ⟨rfl, decide_eq_true referenced⟩
  simp only [acquireEmbeddedRuntime, present, kept, Bool.false_eq_true, if_false]

theorem acquireEmbeddedRuntime_of_none {runtime : Runtime} (absent : runtime.cell = none)
    (tries : Nat → StartAttempt) :
    (∃ error, acquireEmbeddedRuntime extractPort false tries runtime = (.error error, runtime)) ∨
      ∃ serverUrl, acquireEmbeddedRuntime extractPort false tries runtime =
        (.ok { serverUrl, child := runtime.spawned },
          { cell := some { serverUrl, refCount := 1, child := runtime.spawned }
            spawned := runtime.spawned + 1
            running := runtime.spawned :: runtime.running }) := by
  rw [acquireEmbeddedRuntime, absent]
  cases started : startLoop extractPort tries startMaxRetries 0 .maxRetriesExceeded with
  | error error => exact .inl ⟨error, rfl⟩
  | ok serverUrl => exact .inr ⟨serverUrl, rfl⟩

end

/-! ## Queries -/

variable (render : Value → String)

inductive AttemptEnd
  | over (chunks : List MessageChunk)
  | again (chunks : List MessageChunk) (lastErrorMsg : String) (recoveredAgentNotFound : Bool)

def withoutRuntime (recovered : Bool) : RuntimeError → AttemptEnd
  | .aborted => .over [errorResult "aborted" ["OpenCode runtime startup aborted"]]
  | .spawnFailed message =>
      .over [errorResult "opencode_binary_not_found" ["Failed to start OpenCode: " ++ message]]
  | .portConflict => .again [] "Port conflict" recovered
  | error => .over [errorResult "runtime_start_failed" [error.text]]

def unresolvedEnd (attempt : Nat) (recovered cancelled : Bool) (message : String) : AttemptEnd :=
  let errorClass := classifyOpencodeError message cancelled
  let enriched := enrichOpencodeError message errorClass
  if !shouldRetryResolve errorClass || attempt ≥ maxRetries - 1 then
    .over [errorResult errorClass.text [enriched]]
  else .again [] enriched recovered

def failedEnd (query : Query) (attempt : Nat) (recovered cancelled : Bool) (sessionId : String)
    (warning : List MessageChunk) (message : String) : AttemptEnd :=
  if message = "aborted" then .over (warning ++ [abortedResult (some sessionId)])
  else
    let errorClass := classifyOpencodeError message cancelled
    let enriched := enrichOpencodeError message errorClass
    if !shouldRetryStream query recovered errorClass || attempt ≥ maxRetries - 1 then
      .over (warning ++ [errorResult errorClass.text [enriched]])
    else .again warning enriched (recovered || errorClass = .agentNotFound)

def withRuntime (query : Query) (attempt : Nat) (recovered : Bool) : AttemptEnd :=
  let answers := query.attempts attempt
  match resolveSessionId query.resumeSessionId answers with
  | .error message => unresolvedEnd attempt recovered answers.cancelledAfter message
  | .ok resolved =>
      let warning := resumeWarning query resolved
      match createSessionPromptBody query.agents with
      | .error message => .over (warning ++ [errorResult "prompt_build_failed" [message]])
      | .ok () =>
          match streamOpencodeSession render answers resolved.sessionId with
          | .ok sessionChunks => .over (warning ++ sessionChunks)
          | .error message =>
              failedEnd query attempt recovered answers.cancelledAfter resolved.sessionId warning
                message

/-! ## Many queries -/

inductive QueryLife
  /-- Before an attempt; whether an earlier one has acquired the server. -/
  | waiting (query : Query) (attempt : Nat) (recovered acquired : Bool)
  | attempting (query : Query) (attempt : Nat) (recovered : Bool)
  | ended

namespace QueryLife

/-- A query holds the server from its first acquisition until it ends. -/
def holds : QueryLife → Bool
  | .waiting _ _ _ acquired => acquired
  | .attempting _ _ _ => true
  | .ended => false

def after (query : Query) (attempt : Nat) (acquired : Bool) : AttemptEnd → QueryLife
  | .over _ => .ended
  | .again _ _ recovered =>
      if attempt + 1 < maxRetries then .waiting query (attempt + 1) recovered acquired else .ended

end QueryLife

/-- An address that a query got, and whether the process behind it was running. -/
structure Handover where
  serverUrl : String
  alive : Bool

structure SharedRuntime where
  runtime : Runtime := {}
  queries : List QueryLife := []
  handovers : List Handover := []

namespace SharedRuntime

def holders (shared : SharedRuntime) : Nat :=
  shared.queries.countP QueryLife.holds

def withLife (shared : SharedRuntime) (index : Nat) (life : QueryLife) : SharedRuntime :=
  { shared with queries := shared.queries.set index life }

inductive Event
  /-- Another query enters its retry loop. -/
  | begin (query : Query)
  /-- A query begins an attempt, up to the acquisition of the server. -/
  | acquire (index : Nat) (aborted : Bool) (tries : Nat → StartAttempt)
  /-- The rest of the attempt. -/
  | advance (index : Nat)
  /-- Nobody reads the chunks of a query any more. -/
  | drop (index : Nat)
  | crash (child : Nat)

variable (extractPort : String → Option Nat)

/-- An attempt of a waiting query. -/
def acquire (shared : SharedRuntime) (index : Nat) (query : Query) (attempt : Nat)
    (recovered acquired aborted : Bool) (tries : Nat → StartAttempt) : SharedRuntime :=
  if (query.attempts attempt).cancelledBefore then shared.withLife index .ended
  else
    match acquireEmbeddedRuntime extractPort aborted tries shared.runtime with
    | (.error error, runtime) =>
        { shared.withLife index (.after query attempt acquired (withoutRuntime recovered error)) with
          runtime }
    | (.ok handed, runtime) =>
        { shared.withLife index (.attempting query attempt recovered) with
          runtime
          handovers :=
            { serverUrl := handed.serverUrl, alive := handed.child ∈ runtime.running } ::
              shared.handovers }

def step (shared : SharedRuntime) : Event → SharedRuntime
  | .begin query => { shared with queries := shared.queries ++ [.waiting query 0 false false] }
  | .acquire index aborted tries =>
      match shared.queries[index]? with
      | some (.waiting query attempt recovered acquired) =>
          acquire extractPort shared index query attempt recovered acquired aborted tries
      | _ => shared
  | .advance index =>
      match shared.queries[index]? with
      | some (.attempting query attempt recovered) =>
          shared.withLife index (.after query attempt true (withRuntime render query attempt recovered))
      | _ => shared
  | .drop index => shared.withLife index .ended
  | .crash child =>
      { shared with
        runtime.running := shared.runtime.running.filter (· ≠ child) }

/-! ## The balance of references -/

/-- References are counted as they are held, the server ends with the last query that
holds it, and no query has got the address of a server that was down. -/
structure Balanced (shared : SharedRuntime) : Prop where
  counted : shared.runtime.refCount = shared.holders
  terminated : shared.holders = 0 → shared.runtime.running = []
  handed : ∀ handover ∈ shared.handovers, handover.alive = true

/-- The server in the cell is running, and its references can be counted further. -/
def Usable (shared : SharedRuntime) : Prop :=
  ∀ state ∈ shared.runtime.cell,
    state.child ∈ shared.runtime.running ∧ shared.holders + 1 < 2 ^ 32

/-- Holding queries neither end nor make another attempt, and the server is running
whenever it is acquired. -/
def Keeps (shared : SharedRuntime) : Event → Prop
  | .begin _ => True
  | .acquire index aborted _ =>
      match shared.queries[index]? with
      | some (.waiting query attempt _ acquired) =>
          acquired = false ∧
            ((query.attempts attempt).cancelledBefore = true ∨ aborted = true ∨ Usable shared)
      | _ => True
  | .advance index =>
      match shared.queries[index]? with
      | some (.attempting query attempt recovered) =>
          (QueryLife.after query attempt true (withRuntime render query attempt recovered)).holds =
            true
      | _ => True
  | .drop index => ∀ life ∈ shared.queries[index]?, life.holds = false
  | .crash _ => True

/-! ## Steps -/

variable {render extractPort} {shared : SharedRuntime}

theorem holders_withLife (found : shared.queries[index]? = some life) (next : QueryLife) :
    (shared.withLife index next).holders + life.holds.toNat =
      shared.holders + next.holds.toNat := by
  rcases List.getElem?_eq_some_iff.mp found with ⟨bounded, rfl⟩
  have counted := List.countP_set (p := QueryLife.holds) (a := next) bounded
  have present : shared.queries[index].holds.toNat ≤ shared.holders := by
    cases holds : shared.queries[index].holds with
    | false => exact Nat.zero_le _
    | true => exact List.countP_pos_iff.mpr ⟨_, List.getElem_mem bounded, holds⟩
  change (shared.queries.set index next).countP QueryLife.holds + _ = _
  rw [counted]
  change shared.holders - _ + _ + _ = _
  cases holds : shared.queries[index].holds with
  | false => cases next.holds with
    | false => simp
    | true => simp
  | true =>
      rw [holds] at present
      simp only [Bool.toNat_true] at present
      cases next.holds with
      | false => simp; omega
      | true => simp; omega

theorem holds_after_of_not_acquired (query : Query) (attempt : Nat) (ended : AttemptEnd) :
    (QueryLife.after query attempt false ended).holds = false := by
  rcases ended with chunks | ⟨chunks, lastErrorMsg, recovered⟩
  · rfl
  · rw [QueryLife.after]
    split
    · rfl
    · rfl

structure Sound (shared : SharedRuntime) : Prop extends Balanced shared where
  referenced : ∀ state ∈ shared.runtime.cell, 0 < state.refCount

namespace Sound

/-- A server in the cell has as many references as there are queries that hold it. -/
theorem refCount_eq (sound : Sound shared) (present : shared.runtime.cell = some state) :
    state.refCount = shared.holders := by
  have counted := sound.counted
  rw [Runtime.refCount, present] at counted
  exact counted

theorem none_of_holders (sound : Sound shared) (absent : shared.runtime.cell = none) :
    shared.holders = 0 := by
  have counted := sound.counted
  rw [Runtime.refCount, absent] at counted
  exact counted.symm

theorem withLife (sound : Sound shared) (found : shared.queries[index]? = some life)
    (same : next.holds = life.holds) : Sound (shared.withLife index next) := by
  have unchanged := holders_withLife found next
  rw [same, Nat.add_right_cancel_iff] at unchanged
  exact {
    counted := sound.counted.trans unchanged.symm
    terminated := fun none => sound.terminated (unchanged.symm.trans none)
    handed := sound.handed
    referenced := sound.referenced }

end Sound

/-- A query that ends while it holds the server upsets the balance. -/
theorem not_balanced_withLife (sound : Sound shared) (found : shared.queries[index]? = some life)
    (held : life.holds = true) (ended : next.holds = false) :
    ¬ Balanced (shared.withLife index next) := by
  intro balanced
  have fewer := holders_withLife found next
  have counted : shared.runtime.refCount = (shared.withLife index next).holders :=
    balanced.counted
  rw [held, ended, sound.counted.symm, counted] at fewer
  simp at fewer

theorem acquire_of_cancelled {index : Nat} {recovered acquired : Bool} {tries : Nat → StartAttempt}
    (cancelled : (query.attempts attempt).cancelledBefore = true ∨ aborted = true) :
    acquire extractPort shared index query attempt recovered acquired aborted tries =
      shared.withLife index .ended := by
  rw [acquire]
  split
  · rfl
  · next running =>
      have stopped : aborted = true := cancelled.resolve_left running
      subst stopped
      rfl

section

variable {query : Query} {index attempt : Nat} {recovered acquired : Bool}
  {tries : Nat → StartAttempt} {state : EmbeddedRuntimeState}

theorem acquire_of_some (present : shared.runtime.cell = some state)
    (referenced : 0 < state.refCount) (running : ¬ (query.attempts attempt).cancelledBefore = true) :
    acquire extractPort shared index query attempt recovered acquired false tries =
      { shared.withLife index (.attempting query attempt recovered) with
        runtime.cell := some { state with refCount := (state.refCount + 1) % 2 ^ 32 }
        handovers :=
          { serverUrl := state.serverUrl, alive := state.child ∈ shared.runtime.running } ::
            shared.handovers } := by
  rw [acquire, acquireEmbeddedRuntime_of_some present referenced, if_neg running]
  rfl

theorem sound_acquire_of_some (sound : Sound shared) (present : shared.runtime.cell = some state)
    (found : shared.queries[index]? = some (.waiting query attempt recovered false))
    (running : ¬ (query.attempts attempt).cancelledBefore = true) (usable : Usable shared) :
    Sound (acquire extractPort shared index query attempt recovered false false tries) := by
  rcases usable state present with ⟨alive, fits⟩
  have more : (shared.withLife index (.attempting query attempt recovered)).holders =
      shared.holders + 1 := holders_withLife found _
  have counted : (state.refCount + 1) % 2 ^ 32 = shared.holders + 1 := by
    rw [sound.refCount_eq present]
    exact Nat.mod_eq_of_lt fits
  rw [acquire_of_some present (sound.referenced state present) running]
  exact {
    counted := counted.trans more.symm
    terminated := fun none => absurd (more.symm.trans none) (Nat.succ_ne_zero _)
    handed := by
      intro handover member
      rcases List.mem_cons.mp member with rfl | earlier
      · exact decide_eq_true alive
      · exact sound.handed handover earlier
    referenced := by
      intro next here
      cases here
      dsimp only
      rw [counted]
      exact Nat.succ_pos _ }

theorem sound_acquire_of_none (sound : Sound shared) (absent : shared.runtime.cell = none)
    (found : shared.queries[index]? = some (.waiting query attempt recovered false))
    (running : ¬ (query.attempts attempt).cancelledBefore = true) :
    Sound (acquire extractPort shared index query attempt recovered false false tries) := by
  have nobody := sound.none_of_holders absent
  rw [acquire, if_neg running]
  rcases acquireEmbeddedRuntime_of_none absent tries with ⟨error, failed⟩ | ⟨serverUrl, started⟩
  · rw [failed]
    exact sound.withLife found (holds_after_of_not_acquired query attempt _)
  · rw [started]
    have one : (shared.withLife index (.attempting query attempt recovered)).holders = 1 := by
      have more := holders_withLife found (.attempting query attempt recovered)
      rw [nobody] at more
      exact more
    exact {
      counted := one.symm
      terminated := fun none => absurd (one.symm.trans none) Nat.one_ne_zero
      handed := by
        intro handover member
        rcases List.mem_cons.mp member with rfl | earlier
        · exact decide_eq_true List.mem_cons_self
        · exact sound.handed handover earlier
      referenced := by
        intro next here
        cases here
        exact Nat.one_pos }

theorem sound_acquire (sound : Sound shared)
    (found : shared.queries[index]? = some (.waiting query attempt recovered false))
    (usable : (query.attempts attempt).cancelledBefore = true ∨ aborted = true ∨ Usable shared) :
    Sound (acquire extractPort shared index query attempt recovered false aborted tries) := by
  by_cases cancelled : (query.attempts attempt).cancelledBefore = true ∨ aborted = true
  · rw [acquire_of_cancelled cancelled]
    exact sound.withLife found rfl
  · rw [not_or, Bool.not_eq_true aborted] at cancelled
    rcases cancelled with ⟨running, rfl⟩
    cases present : shared.runtime.cell with
    | none => exact sound_acquire_of_none sound present found running
    | some state =>
        have ready : Usable shared := (usable.resolve_left running).resolve_left Bool.false_ne_true
        exact sound_acquire_of_some sound present found running ready

theorem succ_mod_ne (count : Nat) : (count + 1) % 2 ^ 32 ≠ count := by
  omega

theorem not_balanced_acquire_again {aborted : Bool} (sound : Sound shared)
    (found : shared.queries[index]? = some (.waiting query attempt recovered true)) :
    ¬ Balanced (acquire extractPort shared index query attempt recovered true aborted tries) := by
  by_cases cancelled : (query.attempts attempt).cancelledBefore = true ∨ aborted = true
  · rw [acquire_of_cancelled cancelled]
    exact not_balanced_withLife sound found rfl rfl
  · rw [not_or, Bool.not_eq_true aborted] at cancelled
    rcases cancelled with ⟨running, rfl⟩
    have same : (shared.withLife index (.attempting query attempt recovered)).holders =
        shared.holders := Nat.add_right_cancel (holders_withLife found _)
    have somebody : 0 < shared.holders :=
      List.countP_pos_iff.mpr ⟨_, List.mem_of_getElem? found, rfl⟩
    cases present : shared.runtime.cell with
    | none => exact absurd (sound.none_of_holders present) somebody.ne'
    | some state =>
        rw [acquire_of_some present (sound.referenced state present) running]
        intro balanced
        have counted : (state.refCount + 1) % 2 ^ 32 = shared.holders :=
          balanced.counted.trans same
        rw [sound.refCount_eq present] at counted
        exact succ_mod_ne _ counted

theorem not_balanced_acquire_unusable (sound : Sound shared)
    (found : shared.queries[index]? = some (.waiting query attempt recovered false))
    (running : ¬ (query.attempts attempt).cancelledBefore = true) (unusable : ¬ Usable shared) :
    ¬ Balanced (acquire extractPort shared index query attempt recovered false false tries) := by
  intro balanced
  apply unusable
  intro state present
  rw [acquire_of_some present (sound.referenced state present) running] at balanced
  constructor
  · exact of_decide_eq_true (balanced.handed _ List.mem_cons_self)
  · have more : (shared.withLife index (.attempting query attempt recovered)).holders =
        shared.holders + 1 := holders_withLife found _
    have counted : (state.refCount + 1) % 2 ^ 32 = shared.holders + 1 :=
      balanced.counted.trans more
    rw [← counted]
    exact Nat.mod_lt _ (by norm_num)

end

theorem sound_step (sound : Sound shared) (keeps : Keeps render shared event) :
    Sound (step render extractPort shared event) := by
  cases event with
  | begin query =>
      have same : (step render extractPort shared (.begin query)).holders = shared.holders :=
        List.countP_append
      exact {
        counted := sound.counted.trans same.symm
        terminated := fun none => sound.terminated (same.symm.trans none)
        __ := sound }
  | acquire index aborted tries =>
      rw [step]
      rw [Keeps] at keeps
      split
      · next found =>
          rw [found] at keeps
          rcases keeps with ⟨rfl, usable⟩
          exact sound_acquire sound found usable
      · exact sound
  | advance index =>
      rw [step]
      rw [Keeps] at keeps
      split
      · next found =>
          rw [found] at keeps
          exact sound.withLife found keeps
      · exact sound
  | drop index =>
      cases found : shared.queries[index]? with
      | none =>
          rw [step, withLife, List.set_eq_of_length_le (List.getElem?_eq_none_iff.mp found)]
          exact sound
      | some life => exact sound.withLife found (keeps life found).symm
  | crash child =>
      exact {
        __ := sound
        terminated := by
          intro none
          change shared.runtime.running.filter _ = []
          rw [sound.terminated none, List.filter_nil] }

theorem not_balanced_step (sound : Sound shared) (breaks : ¬ Keeps render shared event) :
    ¬ Balanced (step render extractPort shared event) := by
  cases event with
  | begin query => exact absurd trivial breaks
  | acquire index aborted tries =>
      rw [step]
      rw [Keeps] at breaks
      split
      · next query attempt recovered acquired found =>
          rw [found] at breaks
          cases acquired with
          | true => exact not_balanced_acquire_again sound found
          | false =>
              rw [not_and, not_or, not_or, Bool.not_eq_true aborted] at breaks
              rcases breaks rfl with ⟨running, rfl, unusable⟩
              exact not_balanced_acquire_unusable sound found running unusable
      · next other =>
          split at breaks
          · next found => exact absurd found (other _ _ _ _)
          · exact absurd trivial breaks
  | advance index =>
      rw [step]
      rw [Keeps] at breaks
      split
      · next found =>
          rw [found] at breaks
          exact not_balanced_withLife sound found rfl (Bool.not_eq_true _ ▸ breaks)
      · next other =>
          split at breaks
          · next found => exact absurd found (other _ _ _)
          · exact absurd trivial breaks
  | drop index =>
      rw [Keeps] at breaks
      push Not at breaks
      rcases breaks with ⟨life, found, held⟩
      exact not_balanced_withLife sound found (Bool.eq_true_of_not_eq_false held) rfl
  | crash child => exact absurd trivial breaks

/-- However queries are interleaved, references are balanced exactly as long as no query
that has acquired the server ends or makes another attempt, and the server is running
whenever it is acquired. -/
theorem balanced_iff_keeps (events : List Event) :
    EventRun.Throughout (step render extractPort) Balanced {} events ↔
      EventRun.Along (step render extractPort) (Keeps render) {} events := by
  have start : Sound ({} : SharedRuntime) := {
    counted := rfl
    terminated := fun _ => rfl
    handed := fun _ none => absurd none List.not_mem_nil
    referenced := fun _ none => absurd none (Option.not_mem_none _) }
  exact @EventRun.throughout_iff_along _ _ _ Sound Balanced (Keeps render) Sound.toBalanced
    sound_step not_balanced_step _ start events

def startsAtOnce (_ : Nat) : StartAttempt :=
  .spawned ["opencode server listening on http://127.0.0.1:4096"] false ""

def idleQuery : Query where
  modelRef := some "anthropic/claude"
  attempts := fun _ => {
    createSession := .ok (.object [("id", .string "session")])
    events := [.ok { eventType := "session.idle", properties := [] }] }

/-- A query whose server goes away while it waits for events. -/
def cutQuery : Query where
  modelRef := some "anthropic/claude"
  attempts := fun _ => {
    createSession := .ok (.object [("id", .string "session")])
    events := [.error "socket hang up"] }

/-- The server outlives its only query, and a second attempt gets the address of a
server that has crashed. -/
theorem not_balanced_idleQuery_cutQuery :
    ¬ EventRun.Throughout (step (fun _ => "") fun _ => some 4096) Balanced {}
        [.begin idleQuery, .acquire 0 false startsAtOnce, .advance 0] ∧
      ¬ EventRun.Throughout (step (fun _ => "") fun _ => some 4096) Balanced {}
        [.begin cutQuery, .acquire 0 false startsAtOnce, .crash 0, .advance 0,
          .acquire 0 false startsAtOnce] := by
  constructor
  · intro always
    have final := (always _ [] (List.append_nil _).symm).terminated
    revert final
    decide
  · intro always
    have final := (always _ [] (List.append_nil _).symm).handed
    revert final
    decide

end SharedRuntime

end OpenCode

end HarnessAgent
