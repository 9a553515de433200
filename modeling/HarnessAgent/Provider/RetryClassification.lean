import HarnessAgent.Foundation.FixedTexts
import HarnessAgent.Provider.ResultContract
import HarnessAgent.Provider.RetryRuns

/-! # Which failures are repeated

The class of a failure is found by searching its text, which has numbers and texts of
others in it. What is searched for is in none of the fixed texts around them, so the
class is decided by these numbers and texts alone.
-/

namespace HarnessAgent

namespace Claude

open Provider RetryLoop

variable {ε : Type} (library : Library ε)

/-! ## Failures -/

/-- Why an attempt fails, with the numbers and texts that are told about it. -/
inductive Failure (ε : Type)
  | start (message : String)
  | timeout (timeoutMs : Nat)
  | firstRead (message : String)
  | firstLine (lineNo : Nat) (line : String) (source : ε)
  | read (stderr message : String)
  | exit (code : Int) (stderr : String)

namespace Failure

def text : Failure ε → String
  | .start message => message
  | .timeout timeoutMs => firstEventTimeoutText timeoutMs
  | .firstRead message => "stream error: " ++ streamErrorText library (.io message)
  | .firstLine lineNo line source =>
      "stream error: " ++ streamErrorText library (.parseError lineNo line source)
  | .read stderr message => "I/O reading stdout (stderr: " ++ stderr ++ "): " ++ message
  | .exit code stderr =>
      "process exited with code " ++ toString code ++
        if stderr = "" then "" else " (stderr: " ++ stderr ++ ")"

theorem text_timeout (timeoutMs : Nat) :
    (Failure.timeout timeoutMs : Failure ε).text library = firstEventTimeoutText timeoutMs := rfl

theorem text_firstRead (message : String) :
    (Failure.firstRead message).text library =
      "stream error: " ++ ("I/O error reading subprocess stdout: " ++ message) := rfl

theorem text_firstLine (lineNo : Nat) (line : String) (source : ε) :
    (Failure.firstLine lineNo line source).text library =
      "stream error: " ++ ("JSON parse error on line " ++ toString lineNo ++ ": " ++
        library.showError source ++ "\n  line: " ++ library.quote line) := rfl

theorem text_read (stderr message : String) :
    (Failure.read stderr message).text library =
      "I/O reading stdout (stderr: " ++ stderr ++ "): " ++ message := rfl

theorem text_exit (code : Int) (stderr : String) :
    (Failure.exit code stderr).text library =
      "process exited with code " ++ toString code ++
        if stderr = "" then "" else " (stderr: " ++ stderr ++ ")" := rfl

def embedded : Failure ε → List String
  | .start message => [message]
  | .timeout timeoutMs => [toString timeoutMs]
  | .firstRead message => [message]
  | .firstLine lineNo line source =>
      [toString lineNo, library.showError source, library.quote line]
  | .read stderr message => [stderr, message]
  | .exit code stderr => [toString code, stderr]

def Embeds (patterns : List String) (failure : Failure ε) : Prop :=
  ∃ part ∈ failure.embedded library, part.mentionsAny patterns = true

def IsTimeout : Failure ε → Prop
  | .timeout _ => True
  | _ => False

end Failure

def laterFailure (process : Process) (items : List (NdjsonStream.Item ε)) :
    Option (Failure ε) :=
  match firstFault library items with
  | some .panic => none
  | some (.io message) => some (.read (stderrContext process) message)
  | none => (process.exitCode.filter (· ≠ 0)).map fun code => .exit code (stderrContext process)

def attemptFailure (timeoutMs : Nat) (attempt : Attempt) : Option (Failure ε) :=
  match attempt.started with
  | .error message => some (.start message)
  | .ok process =>
      if process.silent then some (.timeout timeoutMs)
      else
        match NdjsonStream.fromByteStream library.fromStr process.stdout with
        | [] => laterFailure library process []
        | .value event :: rest =>
            if parseClaudeStreamJson library.render event = none then none
            else laterFailure library process (itemsRead process 0 rest)
        | .io message :: _ => some (.firstRead message)
        | .parseError lineNo line source :: _ => some (.firstLine lineNo line source)

variable {library}

theorem text_laterFailure (process : Process) (items : List (NdjsonStream.Item ε)) :
    (laterFailure library process items).map (Failure.text library) =
      outputFailure library process items := by
  unfold laterFailure outputFailure
  cases firstFault library items with
  | none =>
      dsimp only
      rw [Option.map_map]
      rfl
  | some fault =>
      cases fault with
      | panic => rfl
      | io message => rfl

theorem outputFailure_eq_some_iff {process : Process} {items : List (NdjsonStream.Item ε)}
    {message : String} :
    outputFailure library process items = some message ↔
      ∃ failure, laterFailure library process items = some failure ∧
        failure.text library = message := by
  rw [← text_laterFailure, Option.map_eq_some_iff]

theorem failed_iff_text (failure : Failure ε) (message : String) :
    AttemptOutcome.failed (failure.text library) = .failed message ↔
      ∃ other, some failure = some other ∧ other.text library = message := by
  simp only [AttemptOutcome.failed.injEq, Option.some.injEq, exists_eq_left']

theorem runSingleAttempt_eq_failed_iff {timeoutMs : Nat} {attempt : Attempt}
    {message : String} :
    runSingleAttempt library timeoutMs attempt = .failed message ↔
      ∃ failure, attemptFailure library timeoutMs attempt = some failure ∧
        failure.text library = message := by
  unfold runSingleAttempt attemptFailure
  cases attempt.started with
  | error message => exact failed_iff_text (.start message) _
  | ok process =>
      by_cases silent : process.silent = true
      · simp only [silent, if_true]
        exact failed_iff_text (.timeout timeoutMs) _
      · simp only [silent, Bool.false_eq_true, if_false]
        cases NdjsonStream.fromByteStream library.fromStr process.stdout with
        | nil =>
            exact checkExit_eq_failed.trans
              (@outputFailure_eq_some_iff ε library process [] message)
        | cons item rest =>
            cases item with
            | value event =>
                cases parsed : parseClaudeStreamJson library.render event with
                | none => simp [parsed]
                | some chunks =>
                    simp only [parsed, reduceCtorEq, if_false]
                    exact (eventLoop_eq_failed _ _ _ _).trans outputFailure_eq_some_iff
            | io message => exact failed_iff_text (.firstRead message) _
            | parseError lineNo line source =>
                exact failed_iff_text (.firstLine lineNo line source) _

/-! ## What decides the class -/

/-- The patterns that the class of a failure with embedded texts depends on. -/
def searchedPatterns : List String :=
  rateLimitPatterns ++ authPatterns

def leadingTexts : List String :=
  ["stream error: ", "I/O error reading subprocess stdout: ", "JSON parse error on line ",
    "I/O reading stdout (stderr: ", "process exited with code "]

def dividingTexts : List String :=
  [": ", "\n  line: ", "): ", " (stderr: "]

/-- What the text of a failure, and the text that is searched, may end with. -/
def closingTexts : List String :=
  [")", " "]

def timeoutNotice : String :=
  "Claude Code subprocess produced no output within "

def timeoutAdvice : String :=
  "ms. See logs for claude.first_event_timeout diagnostic dump. " ++
    "Details: https://github.com/coleam00/Archon/issues/1067"

theorem fixedTexts_apart :
    (∀ fixed ∈ leadingTexts, ∀ pattern ∈ searchedPatterns,
      Text.Leads pattern.toList (Text.lowercase fixed.toList)) ∧
    (∀ fixed ∈ dividingTexts, ∀ pattern ∈ searchedPatterns,
      Text.Divides pattern.toList (Text.lowercase fixed.toList)) ∧
    (∀ fixed ∈ closingTexts, ∀ pattern ∈ searchedPatterns ++ subprocessCrashPatterns,
      Text.Closes pattern.toList (Text.lowercase fixed.toList)) ∧
    ∀ pattern ∈ searchedPatterns ++ subprocessCrashPatterns,
      Text.Leads pattern.toList (Text.lowercase timeoutNotice.toList) ∧
        Text.Closes pattern.toList (Text.lowercase timeoutAdvice.toList) := by
  have advice : timeoutAdvice.toList =
      "ms. See logs for claude.first_event_timeout diagnostic dump. ".toList ++
        "Details: https://github.com/coleam00/Archon/issues/1067".toList :=
    String.toList_append
  have tested :
      (∀ fixed ∈ leadingTexts.map String.toList, ∀ pattern ∈ searchedPatterns.map String.toList,
        Text.Leads pattern (Text.lowercase fixed)) ∧
      (∀ fixed ∈ dividingTexts.map String.toList, ∀ pattern ∈ searchedPatterns.map String.toList,
        Text.Divides pattern (Text.lowercase fixed)) ∧
      (∀ fixed ∈ closingTexts.map String.toList,
        ∀ pattern ∈ (searchedPatterns ++ subprocessCrashPatterns).map String.toList,
          Text.Closes pattern (Text.lowercase fixed)) ∧
      ∀ pattern ∈ (searchedPatterns ++ subprocessCrashPatterns).map String.toList,
        Text.Leads pattern (Text.lowercase timeoutNotice.toList) ∧
          Text.Closes pattern (Text.lowercase timeoutAdvice.toList) := by
    rw [advice]
    simp only [leadingTexts, dividingTexts, closingTexts, timeoutNotice, searchedPatterns,
      rateLimitPatterns, authPatterns, subprocessCrashPatterns, List.map_cons, List.map_nil,
      List.cons_append, List.nil_append]
    -- The literals are made lists of characters, on which the tests are cheap.
    repeat rw [String.toList_ofList]
    decide +kernel
  simpa only [List.forall_mem_map] using tested

variable {patterns : List String}

theorem timeoutText_mentions_iff
    (searched : ∀ pattern ∈ patterns, pattern ∈ searchedPatterns ++ subprocessCrashPatterns)
    (timeoutMs : Nat) : (firstEventTimeoutText timeoutMs).mentionsAny patterns = true ↔
      (toString timeoutMs).mentionsAny patterns = true := by
  have closes : ∀ pattern ∈ patterns,
      Text.Closes pattern.toList (Text.lowercase timeoutAdvice.toList) :=
    fun pattern member => (fixedTexts_apart.2.2.2 pattern (searched pattern member)).2
  have leads : ∀ pattern ∈ patterns,
      Text.Leads pattern.toList (Text.lowercase timeoutNotice.toList) :=
    fun pattern member => (fixedTexts_apart.2.2.2 pattern (searched pattern member)).1
  have split : firstEventTimeoutText timeoutMs =
      timeoutNotice ++ toString timeoutMs ++ timeoutAdvice :=
    String.append_assoc
  rw [split, String.mentionsAny_close_iff closes, String.mentionsAny_lead_iff leads]

theorem not_mentions_empty (searched : ∀ pattern ∈ patterns, pattern ∈ searchedPatterns) :
    ¬"".mentionsAny patterns = true := by
  have shown : ∀ pattern ∈ searchedPatterns, pattern ≠ "" := by
    decide
  rw [String.mentionsAny_iff]
  rintro ⟨pattern, member, occurs⟩
  have empty := String.toList_eq_nil_iff.mp (List.infix_nil.mp occurs)
  exact shown pattern (searched pattern member) empty

theorem mentions_text_iff (searched : ∀ pattern ∈ patterns, pattern ∈ searchedPatterns)
    (failure : Failure ε) :
    (failure.text library).mentionsAny patterns = true ↔ failure.Embeds library patterns := by
  have leads (fixed : String) (leading : fixed ∈ leadingTexts) (text : String) :
      (fixed ++ text).mentionsAny patterns = true ↔ text.mentionsAny patterns = true :=
    String.mentionsAny_lead_iff
      (fun pattern member => fixedTexts_apart.1 fixed leading pattern (searched pattern member)) text
  have divides (fixed : String) (dividing : fixed ∈ dividingTexts) (left right : String) :
      (left ++ fixed ++ right).mentionsAny patterns = true ↔
        left.mentionsAny patterns = true ∨ right.mentionsAny patterns = true :=
    String.mentionsAny_divided_iff
      (fun pattern member => fixedTexts_apart.2.1 fixed dividing pattern (searched pattern member))
      left right
  have closes (text : String) : (text ++ ")").mentionsAny patterns = true ↔
      text.mentionsAny patterns = true :=
    String.mentionsAny_close_iff
      (fun pattern member => fixedTexts_apart.2.2.1 ")" (by decide) pattern
        (List.mem_append_left _ (searched pattern member))) text
  simp only [Failure.Embeds]
  cases failure
  all_goals
    simp only [Failure.embedded, List.mem_cons, List.not_mem_nil, or_false, exists_eq_or_imp,
      exists_eq_left]
  case start message => exact Iff.rfl
  case timeout timeoutMs =>
    have all : ∀ pattern ∈ patterns, pattern ∈ searchedPatterns ++ subprocessCrashPatterns :=
      fun pattern member => List.mem_append_left _ (searched pattern member)
    exact timeoutText_mentions_iff all timeoutMs
  case firstRead message =>
    rw [Failure.text_firstRead, leads _ (by decide), leads _ (by decide)]
  case firstLine lineNo line source =>
    rw [Failure.text_firstLine, leads _ (by decide), divides _ (by decide),
      divides _ (by decide), leads _ (by decide), or_assoc]
  case read stderr message =>
    rw [Failure.text_read, divides _ (by decide), leads _ (by decide)]
  case exit code stderr =>
    rw [Failure.text_exit]
    by_cases silent : stderr = ""
    · rw [if_pos silent, String.append_empty, leads _ (by decide), silent,
        or_iff_left (not_mentions_empty searched)]
    · rw [if_neg silent, ← String.append_assoc, ← String.append_assoc, closes,
        divides _ (by decide), leads _ (by decide)]

/-! ## Numbers -/

theorem number_mentions_iff (number : Nat) :
    (toString number).mentionsAny patterns = true ↔
      ∃ pattern ∈ patterns, pattern.toList <:+: Nat.toDigits 10 number := by
  have digits : (toString number).toList = Nat.toDigits 10 number := Nat.toList_repr
  rw [String.mentionsAny_iff, digits, Text.lowercase_number]
  intro character member
  exact .inr (Text.isAsciiDigit_of_mem_toDigits member)

theorem not_infix_number (other : pattern.all Text.isAsciiDigit = false) (number : Nat) :
    ¬pattern <:+: Nat.toDigits 10 number := by
  intro occurs
  have digits : pattern.all Text.isAsciiDigit = true := by
    rw [List.all_eq_true]
    intro character member
    exact Text.isAsciiDigit_of_mem_toDigits (occurs.subset member)
  rw [digits] at other
  cases other

theorem not_digits_of_ne : ∀ pattern ∈ rateLimitPatterns ++ subprocessCrashPatterns,
    pattern ≠ "429" → pattern.toList.all Text.isAsciiDigit = false := by
  decide +kernel

theorem timeout_embeds_iff (library : Library ε) (timeoutMs : Nat) :
    (Failure.timeout timeoutMs : Failure ε).Embeds library rateLimitPatterns ↔
      "429".toList <:+: Nat.toDigits 10 timeoutMs := by
  simp only [Failure.Embeds, Failure.embedded, List.mem_singleton, exists_eq_left]
  rw [number_mentions_iff]
  constructor
  · rintro ⟨pattern, member, occurs⟩
    by_cases same : pattern = "429"
    · rw [← same]
      exact occurs
    · have other := not_digits_of_ne pattern (List.mem_append_left _ member) same
      exact absurd occurs (not_infix_number other timeoutMs)
  · intro occurs
    exact ⟨"429", by decide, occurs⟩

theorem timeoutText_not_crash (timeoutMs : Nat) :
    ¬(firstEventTimeoutText timeoutMs).mentionsAny subprocessCrashPatterns = true := by
  have noNumber : "429" ∉ subprocessCrashPatterns := by
    decide
  rw [timeoutText_mentions_iff fun pattern member => List.mem_append_right _ member,
    number_mentions_iff]
  rintro ⟨pattern, member, occurs⟩
  have other := not_digits_of_ne pattern (List.mem_append_right _ member)
    (fun same => noNumber (same ▸ member))
  exact not_infix_number other timeoutMs occurs

/-! ## The retry decision -/

theorem classify_mentions_iff {patterns : List String}
    (searched : ∀ pattern ∈ patterns, pattern ∈ searchedPatterns ++ subprocessCrashPatterns)
    (message : String) :
    (message ++ " " ++ "").mentionsAny patterns = true ↔ message.mentionsAny patterns = true := by
  rw [String.append_empty]
  exact String.mentionsAny_close_iff
    (fun pattern member => fixedTexts_apart.2.2.1 " " (by decide) pattern (searched pattern member))
    message

/-- A failure that may pass: its text speaks of a rate limit, or of a crash and not of
authentication. -/
theorem classify_transient_iff (message : String) :
    (classifySubprocessError message "" = .rateLimit ∨
        classifySubprocessError message "" = .crash) ↔
      message.mentionsAny rateLimitPatterns = true ∨
        (¬message.mentionsAny authPatterns = true ∧
          message.mentionsAny subprocessCrashPatterns = true) := by
  rw [← classify_mentions_iff fun pattern member => List.mem_append_left _
      (List.mem_append_left authPatterns member),
    ← @classify_mentions_iff authPatterns fun pattern member => List.mem_append_left _
      (List.mem_append_right rateLimitPatterns member),
    ← @classify_mentions_iff subprocessCrashPatterns fun pattern member =>
      List.mem_append_right _ member]
  unfold classifySubprocessError
  dsimp only
  generalize message ++ " " ++ "" = combined
  split
  · next limited => simp [limited]
  · next unlimited =>
      split
      · next denied => simp [denied, unlimited]
      · next allowed =>
          split
          · next crashed => simp [allowed, crashed]
          · next other => simp [unlimited, other]

theorem transient_of_excluded {failure : Failure ε}
    (excluded : failure.IsTimeout ∨ failure.Embeds library authPatterns) :
    (classifySubprocessError (failure.text library) "" = .rateLimit ∨
        classifySubprocessError (failure.text library) "" = .crash) ↔
      failure.Embeds library rateLimitPatterns := by
  have limited : ∀ pattern ∈ rateLimitPatterns, pattern ∈ searchedPatterns :=
    fun pattern member => List.mem_append_left authPatterns member
  have denying : ∀ pattern ∈ authPatterns, pattern ∈ searchedPatterns :=
    fun pattern member => List.mem_append_right rateLimitPatterns member
  rw [classify_transient_iff, mentions_text_iff limited, mentions_text_iff denying]
  apply or_iff_left
  rintro ⟨allowed, crashed⟩
  rcases excluded with timeout | denied
  · cases failure with
    | timeout timeoutMs =>
        rw [Failure.text_timeout] at crashed
        exact timeoutText_not_crash timeoutMs crashed
    | start message => exact timeout
    | firstRead message => exact timeout
    | firstLine lineNo line source => exact timeout
    | read stderr message => exact timeout
    | exit code stderr => exact timeout
  · exact allowed denied

def MayGoOn (query : Query) (attempt : Nat) : Prop :=
  attempt < maxSubprocessRetries ∧ (query.attempts attempt).cancelledAfter = false ∧
    (query.attempts (attempt + 1)).cancelledBefore = false

/-- After such a failure the next attempt is made exactly if it may be, and something that
is told about the failure imitates a rate limit. -/
theorem retried_iff {query : Query} {attempt : Nat} {failure : Failure ε}
    (made : attempt ∈ (queryTrace library query).made)
    (fails : attemptFailure library query.timeoutMs (query.attempts attempt) = some failure)
    (excluded : failure.IsTimeout ∨ failure.Embeds library authPatterns) :
    attempt + 1 ∈ (queryTrace library query).made ↔
      MayGoOn query attempt ∧ failure.Embeds library rateLimitPatterns := by
  have outcome : runSingleAttempt library query.timeoutMs (query.attempts attempt) =
      .failed (failure.text library) :=
    runSingleAttempt_eq_failed_iff.mpr ⟨failure, fails, rfl⟩
  have again : verdict library query attempt = .again ↔
      (query.attempts attempt).cancelledAfter = false ∧
        failure.Embeds library rateLimitPatterns := by
    rw [verdict_eq_again_iff, outcome]
    simp only [AttemptOutcome.failed.injEq, exists_eq_left']
    rw [transient_of_excluded excluded]
  rw [next_mem_queryTrace_iff made, again]
  unfold MayGoOn
  constructor
  · rintro ⟨⟨uncancelled, imitates⟩, left, running⟩
    exact ⟨⟨left, uncancelled, running⟩, imitates⟩
  · rintro ⟨⟨left, uncancelled, running⟩, imitates⟩
    exact ⟨⟨uncancelled, imitates⟩, left, running⟩

/-- An attempt that runs into the timeout, or fails with a word for authentication in what
it tells, is not repeated exactly if nothing that it tells imitates a rate limit, or it
could not be repeated anyhow. -/
theorem not_retried_iff {query : Query} {attempt : Nat} {failure : Failure ε}
    (made : attempt ∈ (queryTrace library query).made)
    (fails : attemptFailure library query.timeoutMs (query.attempts attempt) = some failure)
    (excluded : failure.IsTimeout ∨ failure.Embeds library authPatterns) :
    attempt + 1 ∉ (queryTrace library query).made ↔
      (MayGoOn query attempt → ¬failure.Embeds library rateLimitPatterns) := by
  rw [retried_iff made fails excluded]
  exact not_and

/-- A query whose attempts all go alike, with nothing to report about its configuration. -/
def repeatedQuery (timeoutMs : Nat) (process : Process) : Query where
  cliPath := .ok none
  mcpConfig := .ok ()
  nodeConfigWarnings := []
  timeoutMs
  attempts _ := { started := .ok process }

def silentProcess : Process where
  stdout := []
  silent := true

def deniedProcess (stderr : String) : Process where
  stdout := []
  stderr := [stderr]
  exitCode := some 1

theorem not_retried_silent :
    1 ∉ (queryTrace lineLibrary (repeatedQuery 60000 silentProcess)).made := by
  apply (@not_retried_iff _ lineLibrary (repeatedQuery 60000 silentProcess) 0 (.timeout 60000)
    (first_mem_made_iff.mpr rfl) rfl (.inl trivial)).mpr
  intro _
  rw [timeout_embeds_iff]
  decide +kernel

def deniedText : String :=
  "401 Unauthorized (request 74290)"

/-- With a timeout of 42.9 seconds, or a request of a certain number, another attempt is
made. -/
theorem retried_imitations :
    (attemptFailure lineLibrary 42900 { started := .ok silentProcess } = some (.timeout 42900) ∧
      1 ∈ (queryTrace lineLibrary (repeatedQuery 42900 silentProcess)).made) ∧
    attemptFailure lineLibrary 60000 { started := .ok (deniedProcess deniedText) } =
        some (.exit 1 deniedText) ∧
      (Failure.exit 1 deniedText).Embeds lineLibrary authPatterns ∧
      1 ∈ (queryTrace lineLibrary (repeatedQuery 60000 (deniedProcess deniedText))).made := by
  have denied : attemptFailure lineLibrary 60000 { started := .ok (deniedProcess deniedText) } =
      some (.exit 1 deniedText) := by
    rfl
  have unauthorized : (Failure.exit 1 deniedText).Embeds lineLibrary authPatterns :=
    ⟨deniedText, .tail _ (.head _), by decide +kernel⟩
  refine ⟨⟨rfl, ?_⟩, denied, unauthorized, ?_⟩
  · apply (@retried_iff _ lineLibrary (repeatedQuery 42900 silentProcess) 0 (.timeout 42900)
      (first_mem_made_iff.mpr rfl) rfl (.inl trivial)).mpr
    refine ⟨⟨by decide, rfl, rfl⟩, ?_⟩
    rw [timeout_embeds_iff]
    decide +kernel
  · apply (@retried_iff _ lineLibrary (repeatedQuery 60000 (deniedProcess deniedText)) 0 _
      (first_mem_made_iff.mpr rfl) denied (.inr unauthorized)).mpr
    exact ⟨⟨by decide, rfl, rfl⟩, deniedText, .tail _ (.head _), by decide +kernel⟩

end Claude

end HarnessAgent
