import HarnessAgent.Foundation.FixedTexts
import HarnessAgent.Isolation.CloneRepository

/-! # What failures of git are taken for

The callers of git tell its failures apart by phrases. A phrase that was meant to be found
in what git wrote can stand in the arguments, too, and an exit code in a longer one.
-/

namespace HarnessAgent

open LexicalPath StatefulRun WorkspaceSync GitListing

namespace GitFailures

/-! ## The parts of a message -/

def quoted (arguments : List (List Char)) : Fault → List Char
  | .exit _ _ _ => commandLine arguments
  | _ => []

def wrote (timeoutMs : Nat) : Fault → List Char
  | .exit _ stderr _ => Text.trim stderr
  | fault => fault.message timeoutMs []

def ended : Fault → List Char
  | .exit code _ _ => exitLine code
  | _ => []

variable {phrase : String}

theorem mentions_nil (shown : phrase ≠ "") : mentions [] phrase = false := by
  rw [← Bool.not_eq_true, mentions_iff]
  intro occurs
  exact shown (String.toList_eq_nil_iff.mp (List.infix_nil.mp occurs))

theorem mentions_ownReport (code : Int) (stderr : List Char) (shown : phrase ≠ "")
    (line : '\n' ∉ phrase.toList) :
    mentions (ownReport code stderr) phrase =
      (mentions (Text.trim stderr) phrase || mentions (exitLine code) phrase) := by
  rw [ownReport]
  split
  · next silent =>
      rw [List.isEmpty_iff.mp silent, mentions_nil shown, Bool.false_or]
  · exact mentions_lines _ _ line

theorem mentions_message (timeoutMs : Nat) (arguments : List (List Char)) (fault : Fault)
    {phrase : String} (shown : phrase ≠ "") (line : '\n' ∉ phrase.toList) :
    mentions (fault.message timeoutMs arguments) phrase =
      (mentions (quoted arguments fault) phrase || mentions (wrote timeoutMs fault) phrase ||
        mentions (ended fault) phrase) := by
  have alone (text : List Char) : mentions text phrase =
      (mentions [] phrase || mentions text phrase || mentions [] phrase) := by
    rw [mentions_nil shown, Bool.false_or, Bool.or_false]
  cases fault with
  | spawn error => exact alone _
  | wait error acted => exact alone _
  | timeout acted => exact alone _
  | exit code stderr acted =>
      have message : (Fault.exit code stderr acted).message timeoutMs arguments =
          commandFailed arguments code stderr := rfl
      rw [message, commandFailed_eq, mentions_lines _ _ line,
        mentions_ownReport code stderr shown line, ← Bool.or_assoc]
      rfl

theorem shows_message (timeoutMs : Nat) (arguments : List (List Char)) (fault : Fault)
    (shown : ∀ phrase ∈ phrases, phrase ≠ "") (line : OneLine phrases) :
    shows phrases (fault.message timeoutMs arguments) =
      (shows phrases (quoted arguments fault) || shows phrases (wrote timeoutMs fault) ||
        shows phrases (ended fault)) := by
  induction phrases with
  | nil => rfl
  | cons phrase phrases induction =>
      have onward := induction (fun other member => shown other (List.mem_cons_of_mem _ member))
        fun other member => line other (List.mem_cons_of_mem _ member)
      have here := mentions_message timeoutMs arguments fault (shown phrase List.mem_cons_self)
        (line phrase List.mem_cons_self)
      simp only [shows, List.any_cons] at onward ⊢
      rw [onward, here]
      ac_rfl

/-! ## The exit line -/

/-- The decimal form of an exit code: digits, after a sign if it is negative. -/
theorem mem_toString_code {code : Int} {character : Char}
    (member : character ∈ (toString code).toList) :
    character = '-' ∨ Text.isAsciiDigit character = true := by
  rw [Int.toString_eq_repr, Int.repr_eq_if] at member
  split at member
  · rw [Nat.toList_repr] at member
    exact .inr (Text.isAsciiDigit_of_mem_toDigits member)
  · rw [String.toList_append, List.mem_append, Nat.toList_repr] at member
    rcases member with sign | digit
    · exact .inl (List.mem_singleton.mp sign)
    · exact .inr (Text.isAsciiDigit_of_mem_toDigits digit)

theorem lower_exitLine (code : Int) :
    Text.lowercase (exitLine code) =
      "process exited with code ".toList ++ (toString code).toList := by
  have started : Text.lowercase "Process exited with code ".toList =
      "process exited with code ".toList := by
    decide +kernel
  have whole : Text.lowercase (exitLine code) =
      Text.lowercase "Process exited with code ".toList ++
        Text.lowercase (toString code).toList :=
    Text.lowercase_append _ _
  rw [whole, started, Text.lowercase_number fun character member => mem_toString_code member]

theorem mem_lower_exitLine {code : Int} {character : Char}
    (member : character ∈ Text.lowercase (exitLine code)) :
    character ∈ "process exited with code ".toList ∨ character = '-' ∨
      Text.isAsciiDigit character = true := by
  rw [lower_exitLine, List.mem_append] at member
  exact member.imp_right mem_toString_code

theorem mentions_exitLine_eq_false (starts : phrase.toList = first :: rest)
    (absent : first ∉ "process exited with code ".toList ∧ first ≠ '-' ∧
      Text.isAsciiDigit first = false) (code : Int) : mentions (exitLine code) phrase = false := by
  rw [← Bool.not_eq_true, mentions_iff, starts]
  intro occurs
  rcases mem_lower_exitLine (occurs.subset List.mem_cons_self) with letter | sign | digit
  · exact absent.1 letter
  · exact absent.2.1 sign
  · rw [absent.2.2] at digit
    cases digit

def LeadingOne (code : Int) : Prop :=
  ['1'] <+: (toString code).toList

theorem mentions_exitLine_iff (code : Int) :
    mentions (exitLine code) "process exited with code 1" = true ↔ LeadingOne code := by
  have pattern : "process exited with code 1".toList =
      "process exited with code ".toList ++ ['1'] := by
    decide +kernel
  have first : "process exited with code ".toList = 'p' :: "rocess exited with code ".toList := by
    decide +kernel
  rw [mentions_iff, pattern, lower_exitLine]
  constructor
  · intro occurs
    rw [first, List.cons_append, List.cons_append] at occurs
    rcases List.infix_cons_iff.mp occurs with starts | later
    · exact (List.prefix_append_right_inj _).mp (List.cons_prefix_cons.mp starts).2
    · have elsewhere : 'p' ∉ "rocess exited with code ".toList := by decide
      rcases List.mem_append.mp (later.subset List.mem_cons_self) with letter | digit
      · exact absurd letter elsewhere
      · rcases mem_toString_code digit with sign | digit
        · cases sign
        · cases digit
  · intro leading
    exact ((List.prefix_append_right_inj _).mpr leading).isInfix

/-! ## Uncommitted changes -/

def statusArguments : List (List Char) := ["status".toList, "--porcelain".toList]

def RulesOutOnlyMissing (present : Path → Prop) (timeoutMs : Nat) (workingPath : Path)
    (fault : Fault) : Prop :=
  ∀ endings : GitEndings, endings [(workingPath, statusArguments)] = .error fault →
    ∃ value trace,
      (hasUncommittedChanges (reported endings timeoutMs) workingPath).run [] = .ok value trace ∧
        (value = false → ¬present workingPath)

/-- The phrase for a missing file stands neither in the path that was given nor in what git
or the system wrote. -/
def SpeaksOfNoMissingFile (timeoutMs : Nat) (workingPath : Path) (fault : Fault) : Prop :=
  mentions (quoted ("-C".toList :: workingPath :: statusArguments) fault)
      "no such file or directory" = false ∧
    mentions (wrote timeoutMs fault) "no such file or directory" = false

theorem mentions_ended_of_starts {phrase : String} {first : Char} {rest : List Char}
    (starts : phrase.toList = first :: rest)
    (absent : first ∉ "process exited with code ".toList ∧ first ≠ '-' ∧
      Text.isAsciiDigit first = false) (fault : Fault) : mentions (ended fault) phrase = false := by
  have shown : phrase ≠ "" := by
    intro empty
    rw [empty] at starts
    cases starts
  cases fault with
  | exit code stderr acted => exact mentions_exitLine_eq_false starts absent code
  | spawn error => exact mentions_nil shown
  | wait error acted => exact mentions_nil shown
  | timeout acted => exact mentions_nil shown

theorem hasUncommittedChanges_run (answers : GitAnswers) (workingPath : Path) (trace : GitTrace) :
    (hasUncommittedChanges answers workingPath).run trace =
      .ok (match answers (trace ++ [(workingPath, statusArguments)]) with
        | .ok stdout => !(Text.trim stdout).isEmpty
        | .error message => !mentions message "no such file or directory")
        (trace ++ [(workingPath, statusArguments)]) := by
  rw [hasUncommittedChanges, bind_of_ok (attempt_runGit answers workingPath _ trace)]
  change (match answers (trace ++ [(workingPath, statusArguments)]) with
    | .ok stdout => pure !(Text.trim stdout).isEmpty
    | .error message => if mentions message "no such file or directory" then pure false
        else pure true : StatefulRun GitError GitTrace Bool).run
      (trace ++ [(workingPath, statusArguments)]) = _
  cases answers (trace ++ [(workingPath, statusArguments)]) with
  | ok stdout => rfl
  | error message =>
      dsimp only
      cases mentions message "no such file or directory" with
      | true => rfl
      | false => rfl

/-- Exactly where the phrase for a missing file is nowhere in the report, or the path is
missing indeed, a failure does not rule out changes that are there. -/
theorem rulesOutOnlyMissing_iff (present : Path → Prop) (timeoutMs : Nat) (workingPath : Path)
    (fault : Fault) :
    RulesOutOnlyMissing present timeoutMs workingPath fault ↔
      ¬present workingPath ∨ SpeaksOfNoMissingFile timeoutMs workingPath fault := by
  have parts := @mentions_message timeoutMs ("-C".toList :: workingPath :: statusArguments) fault
    "no such file or directory" (by decide) (by decide)
  have unended := @mentions_ended_of_starts "no such file or directory" 'n' _ rfl (by decide) fault
  rw [unended, Bool.or_false] at parts
  have answered {endings : GitEndings}
      (failed : endings [(workingPath, statusArguments)] = .error fault) :
      (hasUncommittedChanges (reported endings timeoutMs) workingPath).run [] =
        .ok (!mentions (fault.message timeoutMs ("-C".toList :: workingPath :: statusArguments))
          "no such file or directory") [(workingPath, statusArguments)] := by
    rw [hasUncommittedChanges_run, List.nil_append, reported, failed]
    rfl
  have silent : SpeaksOfNoMissingFile timeoutMs workingPath fault ↔
      mentions (fault.message timeoutMs ("-C".toList :: workingPath :: statusArguments))
        "no such file or directory" = false := by
    rw [parts, Bool.or_eq_false_iff]
    rfl
  rw [silent]
  constructor
  · intro rulesOut
    rcases rulesOut (fun _ => .error fault) rfl with ⟨value, trace, ran, missing⟩
    rw [answered rfl] at ran
    cases ran
    rw [Bool.not_eq_false'] at missing
    by_cases mentioned : mentions (fault.message timeoutMs
        ("-C".toList :: workingPath :: statusArguments)) "no such file or directory" = true
    · exact .inl (missing mentioned)
    · exact .inr (Bool.not_eq_true _ |>.mp mentioned)
  · intro either endings failed
    refine ⟨_, _, answered failed, ?_⟩
    rw [Bool.not_eq_false']
    intro mentioned
    rcases either with missing | unmentioned
    · exact missing
    · rw [unmentioned] at mentioned
      cases mentioned

theorem not_rulesOutOnlyMissing :
    ¬∀ (present : Path → Prop) (timeoutMs : Nat) (workingPath : Path) (fault : Fault),
      RulesOutOnlyMissing present timeoutMs workingPath fault := by
  intro always
  have rulesOut := always (fun _ => True) 0 "/w".toList
    (.spawn "No such file or directory (os error 2)".toList)
  rcases rulesOut (fun _ => .error (.spawn "No such file or directory (os error 2)".toList)) rfl
    with ⟨value, trace, ran, missing⟩
  have clean : (hasUncommittedChanges (reported (fun _ => .error
      (.spawn "No such file or directory (os error 2)".toList)) 0) "/w".toList).run [] =
        .ok false [("/w".toList, statusArguments)] := by
    have mentioned : mentions ("Failed to spawn 'git': ".toList ++
        "No such file or directory (os error 2)".toList) "no such file or directory" = true := by
      decide +kernel
    rw [hasUncommittedChanges_run]
    exact congrArg (fun mentioned => Outcome.ok (!mentioned) _) mentioned
  rw [clean] at ran
  cases ran
  exact missing rfl trivial

/-! ## Ancestors -/

def ancestorArguments (ancestorRef : List Char) : List (List Char) :=
  ["merge-base".toList, "--is-ancestor".toList, ancestorRef, "HEAD".toList]

/-- The failures that mean that the reference is not an ancestor: the exit code for that,
and the expected errors. -/
def NotAncestor (timeoutMs : Nat) (fault : Fault) : Prop :=
  (∃ stderr acted, fault = .exit 1 stderr acted) ∨
    shows notAncestorPhrases (wrote timeoutMs fault) = true

structure ClassifiesAncestor (endings : GitEndings) (timeoutMs : Nat) (workingPath : Path)
    (ancestorRef : List Char) : Prop where
  ancestor : (∃ trace,
      (isAncestorOf (reported endings timeoutMs) workingPath ancestorRef).run [] =
        .ok true trace) ↔
    ∃ stdout, endings [(workingPath, ancestorArguments ancestorRef)] = .ok stdout
  notAncestor : (∃ trace,
      (isAncestorOf (reported endings timeoutMs) workingPath ancestorRef).run [] =
        .ok false trace) ↔
    ∃ fault, endings [(workingPath, ancestorArguments ancestorRef)] = .error fault ∧
      NotAncestor timeoutMs fault
  failure : (∃ error trace,
      (isAncestorOf (reported endings timeoutMs) workingPath ancestorRef).run [] =
        .error error trace) ↔
    ∃ fault, endings [(workingPath, ancestorArguments ancestorRef)] = .error fault ∧
      ¬NotAncestor timeoutMs fault

/-- Nothing in a report looks like an answer: no phrase stands in the arguments, git did
not write that a process exited, and its exit code does not begin with a `1`. -/
structure NothingImitated (timeoutMs : Nat) (arguments : List (List Char)) (fault : Fault) :
    Prop where
  quoted : shows ("process exited with code 1" :: notAncestorPhrases)
    (quoted arguments fault) = false
  wrote : mentions (wrote timeoutMs fault) "process exited with code 1" = false
  exited : ∀ code stderr acted, fault = .exit code stderr acted → ¬LeadingOne code

def tolerated (message : List Char) : Bool :=
  shows ("process exited with code 1" :: notAncestorPhrases) message

section

variable {answers : GitAnswers} {workingPath : Path} {ancestorRef : List Char} {trace : GitTrace}

theorem isAncestorOf_of_ok
    (answer : answers (trace ++ [(workingPath, ancestorArguments ancestorRef)]) = .ok stdout) :
    (isAncestorOf answers workingPath ancestorRef).run trace =
      .ok true (trace ++ [(workingPath, ancestorArguments ancestorRef)]) := by
  have asked := @attempt_runGit answers GitError workingPath (ancestorArguments ancestorRef) trace
  rw [answer] at asked
  exact bind_of_ok asked

theorem isAncestorOf_of_error {message : List Char}
    (answer : answers (trace ++ [(workingPath, ancestorArguments ancestorRef)]) =
      .error message) :
    (isAncestorOf answers workingPath ancestorRef).run trace =
      if tolerated message then
        .ok false (trace ++ [(workingPath, ancestorArguments ancestorRef)])
      else
        .error (ancestorError workingPath ancestorRef message)
          (trace ++ [(workingPath, ancestorArguments ancestorRef)]) := by
  have asked := @attempt_runGit answers GitError workingPath (ancestorArguments ancestorRef) trace
  rw [answer] at asked
  have either : tolerated message =
      (mentions message "process exited with code 1" || shows notAncestorPhrases message) := rfl
  rw [either]
  refine (bind_of_ok asked).trans ?_
  dsimp only
  cases mentions message "process exited with code 1" with
  | true => rfl
  | false =>
      cases shows notAncestorPhrases message with
      | true => rfl
      | false => rfl

end

/-! ### What is read as an answer -/

theorem oneLine_ancestor :
    (∀ phrase ∈ "process exited with code 1" :: notAncestorPhrases, phrase ≠ "") ∧
      OneLine ("process exited with code 1" :: notAncestorPhrases) := by
  constructor
  · decide
  · intro phrase member
    revert phrase
    decide

theorem shows_ended (fault : Fault) :
    shows ("process exited with code 1" :: notAncestorPhrases) (ended fault) = true ↔
      ∃ code stderr acted, fault = .exit code stderr acted ∧ LeadingOne code := by
  have first := @mentions_ended_of_starts "not a git repository" 'n' _ rfl (by decide) fault
  have second := @mentions_ended_of_starts "unknown revision" 'u' _ rfl (by decide) fault
  have third := @mentions_ended_of_starts "not a valid object name" 'n' _ rfl (by decide) fault
  have fourth := @mentions_ended_of_starts "no such file" 'n' _ rfl (by decide) fault
  have only : shows ("process exited with code 1" :: notAncestorPhrases) (ended fault) =
      mentions (ended fault) "process exited with code 1" := by
    simp only [shows, notAncestorPhrases, List.any_cons, List.any_nil, first, second, third, fourth,
      Bool.or_false]
  have nowhere : mentions [] "process exited with code 1" ≠ true := by
    rw [mentions_nil (by decide)]
    exact Bool.false_ne_true
  rw [only]
  cases fault with
  | exit code stderr acted =>
      rw [ended, mentions_exitLine_iff]
      constructor
      · intro leading
        exact ⟨code, stderr, acted, rfl, leading⟩
      · intro found
        rcases found with ⟨_, _, _, same, leading⟩
        cases same
        exact leading
  | spawn error => exact iff_of_false nowhere (by simp)
  | wait error acted => exact iff_of_false nowhere (by simp)
  | timeout acted => exact iff_of_false nowhere (by simp)

theorem tolerated_message (timeoutMs : Nat) (arguments : List (List Char)) (fault : Fault) :
    tolerated (fault.message timeoutMs arguments) =
      (shows ("process exited with code 1" :: notAncestorPhrases) (quoted arguments fault) ||
        shows ("process exited with code 1" :: notAncestorPhrases) (wrote timeoutMs fault) ||
        shows ("process exited with code 1" :: notAncestorPhrases) (ended fault)) :=
  shows_message timeoutMs arguments fault oneLine_ancestor.1 oneLine_ancestor.2

theorem tolerated_of_notAncestor (notAncestor : NotAncestor timeoutMs fault)
    (arguments : List (List Char)) : tolerated (fault.message timeoutMs arguments) = true := by
  rw [tolerated_message, Bool.or_eq_true, Bool.or_eq_true, shows_ended]
  rcases notAncestor with ⟨stderr, acted, rfl⟩ | expected
  · exact .inr ⟨1, stderr, acted, rfl, List.prefix_refl _⟩
  · apply Or.inl
    apply Or.inr
    rw [shows, List.any_cons, Bool.or_eq_true]
    exact .inr expected

theorem tolerated_eq_false_iff (other : ¬NotAncestor timeoutMs fault) (arguments : List (List Char)) :
    tolerated (fault.message timeoutMs arguments) = false ↔
      NothingImitated timeoutMs arguments fault := by
  have unexpected : shows notAncestorPhrases (wrote timeoutMs fault) = false := by
    rw [← Bool.not_eq_true]
    exact fun expected => other (.inr expected)
  have written : shows ("process exited with code 1" :: notAncestorPhrases)
      (wrote timeoutMs fault) = mentions (wrote timeoutMs fault) "process exited with code 1" := by
    rw [shows, List.any_cons]
    exact (congrArg _ unexpected).trans (Bool.or_false _)
  rw [tolerated_message, written, Bool.or_eq_false_iff, Bool.or_eq_false_iff, ← Bool.not_eq_true
    (shows _ (ended fault)), shows_ended]
  constructor
  · intro silent
    refine ⟨silent.1.1, silent.1.2, ?_⟩
    intro code stderr acted same leading
    exact silent.2 ⟨code, stderr, acted, same, leading⟩
  · intro silent
    refine ⟨⟨silent.quoted, silent.wrote⟩, ?_⟩
    intro found
    rcases found with ⟨code, stderr, acted, same, leading⟩
    exact silent.exited code stderr acted same leading

/-- The answer is right for all endings except those that only look like an expected one. -/
theorem classifiesAncestor_iff (endings : GitEndings) (timeoutMs : Nat) (workingPath : Path)
    (ancestorRef : List Char) :
    ClassifiesAncestor endings timeoutMs workingPath ancestorRef ↔
      ∀ fault, endings [(workingPath, ancestorArguments ancestorRef)] = .error fault →
        NotAncestor timeoutMs fault ∨
          NothingImitated timeoutMs ("-C".toList :: workingPath :: ancestorArguments ancestorRef)
            fault := by
  cases ending : endings [(workingPath, ancestorArguments ancestorRef)] with
  | ok stdout =>
      have answer : reported endings timeoutMs
          ([] ++ [(workingPath, ancestorArguments ancestorRef)]) = .ok stdout := by
        rw [List.nil_append, reported, ending]
      have ran := isAncestorOf_of_ok answer
      refine iff_of_true ⟨?_, ?_, ?_⟩ (by simp)
      · simp [ran, ending]
      · simp [ran, ending]
      · simp [ran, ending]
  | error fault =>
      have answer : reported endings timeoutMs
          ([] ++ [(workingPath, ancestorArguments ancestorRef)]) =
            .error (fault.message timeoutMs
              ("-C".toList :: workingPath :: ancestorArguments ancestorRef)) := by
        rw [List.nil_append, reported, ending]
        rfl
      have ran := isAncestorOf_of_error answer
      by_cases notAncestor : NotAncestor timeoutMs fault
      · rw [if_pos (tolerated_of_notAncestor notAncestor _)] at ran
        refine iff_of_true ⟨?_, ?_, ?_⟩ ?_
        · simp [ran, ending]
        · simp [ran, ending, notAncestor]
        · simp [ran, ending, notAncestor]
        · intro other same
          cases same
          exact .inl notAncestor
      · constructor
        · intro classifies other same
          cases same
          apply Or.inr
          rw [← tolerated_eq_false_iff notAncestor, ← Bool.not_eq_true]
          intro tolerates
          rw [if_pos tolerates] at ran
          rcases classifies.notAncestor.mp ⟨_, ran⟩ with ⟨other, same, means⟩
          rw [ending] at same
          cases same
          exact notAncestor means
        · intro right
          have imitated := (right fault rfl).resolve_left notAncestor
          rw [← tolerated_eq_false_iff notAncestor] at imitated
          rw [imitated, if_neg Bool.false_ne_true] at ran
          refine ⟨?_, ?_, ?_⟩
          · simp [ran, ending]
          · simp [ran, ending, notAncestor]
          · simp [ran, ending, notAncestor]

theorem not_classifiesAncestor_fatal :
    ¬∀ (endings : GitEndings) (timeoutMs : Nat) (workingPath : Path) (ancestorRef : List Char),
      ClassifiesAncestor endings timeoutMs workingPath ancestorRef := by
  intro always
  have classifies := always (fun _ => .error (.exit 128 "fatal: detected dubious ownership".toList
    false)) 0 "/w".toList "main".toList
  have tolerates : tolerated (commandFailed ("-C".toList :: "/w".toList ::
      ancestorArguments "main".toList) 128 "fatal: detected dubious ownership".toList) = true := by
    decide +kernel
  have ran := @isAncestorOf_of_error (reported (fun _ => .error (.exit 128
    "fatal: detected dubious ownership".toList false)) 0) "/w".toList "main".toList [] _ rfl
  rcases classifies.notAncestor.mp ⟨_, ran.trans (if_pos tolerates)⟩ with ⟨fault, same, means⟩
  cases same
  rcases means with ⟨_, _, wrong⟩ | expected
  · cases wrong
  · have unexpected : shows notAncestorPhrases
        (Text.trim "fatal: detected dubious ownership".toList) = false := by
      decide +kernel
    rw [wrote, unexpected] at expected
    cases expected

end GitFailures

end HarnessAgent
