import HarnessAgent.Isolation.GitClassification

/-! # Failures and arguments

Two calls of one function, with other arguments, and the same failure of git: where the
calls take it for different things, their arguments made the difference.
-/

namespace HarnessAgent

open LexicalPath StatefulRun WorkspaceSync GitListing

namespace GitFailures

/-! ## Calls -/

inductive GitFunction where
  | checkout | commitAllChanges | isBranchMerged | isPatchEquivalent | isAncestorOf
  | cloneRepository
  deriving DecidableEq, Repr

inductive Call where
  | checkout (repoPath : Path) (branchName : BranchName)
  | commitAllChanges (workingPath : Path) (message : List Char)
  | isBranchMerged (repoPath : Path) (branchName mainBranch : BranchName)
  | isPatchEquivalent (repoPath : Path) (branchName baseBranch : BranchName)
  | isAncestorOf (workingPath : Path) (ancestorRef : List Char)
  | cloneRepository (url : List Char) (targetPath : Path) (token : Option (List Char))

inductive Verdict where
  | expected | unexpected | notARepo | permissionDenied | noSpace | unknown
  deriving DecidableEq, Repr

structure Endings where
  inRepository : GitEndings
  clone : CloneEndings

def FailsWith (code : Int) (stderr : List Char) (ending : Except Fault (List Char)) : Prop :=
  ∃ acted, ending = .error (.exit code stderr acted)

def cloneVerdict : GitErrorCode → Verdict
  | .notARepo _ => .notARepo
  | .permissionDenied _ => .permissionDenied
  | .noSpace _ => .noSpace
  | .branchNotFound _ | .unknown _ => .unknown

def boolVerdict : Outcome GitError GitTrace Bool → Option Verdict
  | .ok true _ => none
  | .ok false _ => some .expected
  | .error _ _ => some .unexpected

namespace GitFunction

/-- The phrases of the classes that a function tells apart, in the order of its tests. -/
def classes : GitFunction → List (List String)
  | .checkout => [missingBranchPhrases]
  | .commitAllChanges => [["nothing to commit"]]
  | .isBranchMerged => [["not a git repository", "unknown revision", "no such file"]]
  | .isPatchEquivalent => [notEquivalentPhrases]
  | .isAncestorOf => ["process exited with code 1" :: notAncestorPhrases]
  | .cloneRepository =>
      [["not found", "404"], ["authentication failed", "could not read"], ["no space"]]

def verdictOf : GitFunction → Nat → Verdict
  | .cloneRepository, index =>
      match index with
      | 0 => .notARepo
      | 1 => .permissionDenied
      | 2 => .noSpace
      | _ => .unknown
  | _, index => if index = 0 then .expected else .unexpected

theorem oneLine_classes (function : GitFunction) :
    ∀ phrases ∈ function.classes, OneLine phrases := by
  unfold OneLine
  cases function with
  | checkout => decide
  | commitAllChanges => decide
  | isBranchMerged => decide
  | isPatchEquivalent => decide
  | isAncestorOf => decide
  | cloneRepository => decide

theorem verdictOf_injective (function : GitFunction) :
    ∀ first ≤ function.classes.length, ∀ second ≤ function.classes.length,
      function.verdictOf first = function.verdictOf second → first = second := by
  cases function with
  | checkout => decide
  | commitAllChanges => decide
  | isBranchMerged => decide
  | isPatchEquivalent => decide
  | isAncestorOf => decide
  | cloneRepository => decide

end GitFunction

namespace Call

variable (endings : Endings) (code : Int) (stderr : List Char)

/-- The call runs the command whose failure it classifies, and this fails. -/
def Reaches : Call → Prop
  | .checkout repoPath branchName =>
      FailsWith code stderr (endings.inRepository [(repoPath, ["checkout".toList, branchName])])
  | .commitAllChanges workingPath message =>
      (∃ trace, (hasUncommittedChanges (reported endings.inRepository 10000) workingPath).run [] =
        .ok true trace) ∧
      (∃ stdout, endings.inRepository [(workingPath, statusArguments),
        (workingPath, ["add".toList, "-A".toList])] = .ok stdout) ∧
      FailsWith code stderr (endings.inRepository [(workingPath, statusArguments),
        (workingPath, ["add".toList, "-A".toList]),
        (workingPath, ["commit".toList, "-m".toList, message])])
  | .isBranchMerged repoPath _ mainBranch =>
      FailsWith code stderr
        (endings.inRepository [(repoPath, ["branch".toList, "--merged".toList, mainBranch])])
  | .isPatchEquivalent repoPath branchName baseBranch =>
      FailsWith code stderr
        (endings.inRepository [(repoPath, ["cherry".toList, baseBranch, branchName])])
  | .isAncestorOf workingPath ancestorRef =>
      FailsWith code stderr
        (endings.inRepository [(workingPath, ancestorArguments ancestorRef)])
  | .cloneRepository url targetPath token =>
      ∃ cloneUrl, authenticated url token = .ok cloneUrl ∧
        FailsWith code stderr (endings.clone ["clone".toList, cloneUrl, targetPath])

/-- What the call makes of the failure. A checkout that creates the branch took it for a
missing one. -/
def verdict : Call → Option Verdict
  | .checkout repoPath branchName =>
      let ran := (GitFailures.checkout (reported endings.inRepository 30000) repoPath
        branchName).run []
      if (repoPath, ["checkout".toList, "-b".toList, branchName]) ∈ ran.final then some .expected
      else
        match ran with
        | .ok _ _ => none
        | .error _ _ => some .unexpected
  | .commitAllChanges workingPath message =>
      boolVerdict ((GitFailures.commitAllChanges (reported endings.inRepository 10000) workingPath
        message).run [])
  | .isBranchMerged repoPath branchName mainBranch =>
      boolVerdict ((GitListing.isBranchMerged (reported endings.inRepository 0) repoPath branchName
        mainBranch).run [])
  | .isPatchEquivalent repoPath branchName baseBranch =>
      boolVerdict ((GitFailures.isPatchEquivalent (reported endings.inRepository 15000) repoPath
        branchName baseBranch).run [])
  | .isAncestorOf workingPath ancestorRef =>
      boolVerdict ((GitFailures.isAncestorOf (reported endings.inRepository 0) workingPath
        ancestorRef).run [])
  | .cloneRepository url targetPath token =>
      match GitFailures.cloneRepository endings.clone url targetPath token with
      | .ok _ => none
      | .error error => some (cloneVerdict error)

def function : Call → GitFunction
  | .checkout _ _ => .checkout
  | .commitAllChanges _ _ => .commitAllChanges
  | .isBranchMerged _ _ _ => .isBranchMerged
  | .isPatchEquivalent _ _ _ => .isPatchEquivalent
  | .isAncestorOf _ _ => .isAncestorOf
  | .cloneRepository _ _ _ => .cloneRepository

def token : Call → Option (List Char)
  | .cloneRepository _ _ token => token
  | _ => none

/-- The calls differ only in paths, names, messages and URLs. -/
structure SameFunction (first second : Call) : Prop where
  function : first.function = second.function
  token : first.token = second.token

/-- The failure of a command is taken for the same thing in both calls. -/
def ClassifiedAlike (first second : Call) : Prop :=
  ∀ endings others, first.Reaches endings code stderr → second.Reaches others code stderr →
    first.verdict endings = second.verdict others

/-! ## One run -/

def arguments : Call → List (List Char)
  | .checkout repoPath branchName => ["-C".toList, repoPath, "checkout".toList, branchName]
  | .commitAllChanges workingPath message =>
      ["-C".toList, workingPath, "commit".toList, "-m".toList, message]
  | .isBranchMerged repoPath _ mainBranch =>
      ["-C".toList, repoPath, "branch".toList, "--merged".toList, mainBranch]
  | .isPatchEquivalent repoPath branchName baseBranch =>
      ["-C".toList, repoPath, "cherry".toList, baseBranch, branchName]
  | .isAncestorOf workingPath ancestorRef =>
      "-C".toList :: workingPath :: ancestorArguments ancestorRef
  | .cloneRepository url targetPath token =>
      match authenticated url token with
      | .ok cloneUrl => ["clone".toList, cloneUrl, targetPath]
      | .error _ => []

variable {endings : Endings} {code : Int} {stderr : List Char}

theorem shows_singleton (phrase : String) (text : List Char) :
    shows [phrase] text = mentions text phrase := by
  rw [shows, List.any_cons, List.any_nil, Bool.or_false]

theorem firstClass_single (phrases : List String) (text : List Char) :
    firstClass [phrases] text = if shows phrases text then 0 else 1 := by
  rw [firstClass, List.findIdx_singleton]

theorem final_runGit (answers : GitAnswers) (path : Path) (arguments : List (List Char))
    (trace : GitTrace) :
    ((runGit answers path arguments).run trace).final = trace ++ [(path, arguments)] := by
  rw [runGit]
  dsimp only
  cases answers (trace ++ [(path, arguments)]) with
  | ok stdout => rfl
  | error message => rfl

variable {branchName : BranchName} {message : List Char} {repoPath : Path}

theorem checkout_creates
    (answer : answers [(repoPath, ["checkout".toList, branchName])] = .error message)
    (shown : shows missingBranchPhrases message = true) :
    (repoPath, ["checkout".toList, "-b".toList, branchName]) ∈
      ((GitFailures.checkout answers repoPath branchName).run []).final := by
  have asked := @attempt_runGit answers GitError repoPath ["checkout".toList, branchName] []
  rw [List.nil_append, answer] at asked
  rw [GitFailures.checkout, bind_of_ok asked]
  dsimp only
  rw [if_pos shown]
  have asks := final_mapError GitError.process (runGit answers repoPath
    ["checkout".toList, "-b".toList, branchName]) [(repoPath, ["checkout".toList, branchName])]
  rw [final_runGit] at asks
  have member : (repoPath, ["checkout".toList, "-b".toList, branchName]) ∈
      [(repoPath, ["checkout".toList, branchName])] ++
        [(repoPath, ["checkout".toList, "-b".toList, branchName])] :=
    List.mem_append_right _ List.mem_cons_self
  rw [← asks] at member
  cases created : (StatefulRun.mapError GitError.process (runGit answers repoPath
      ["checkout".toList, "-b".toList, branchName])).run
        [(repoPath, ["checkout".toList, branchName])] with
  | ok stdout state =>
      rw [created] at member
      rw [bind_of_ok created]
      exact member
  | error error state =>
      rw [created] at member
      rw [bind_of_error created]
      exact member

theorem checkout_surfaces
    (answer : answers [(repoPath, ["checkout".toList, branchName])] = .error message)
    (absent : ¬shows missingBranchPhrases message = true) :
    ∃ error, (GitFailures.checkout answers repoPath branchName).run [] =
      .error error [(repoPath, ["checkout".toList, branchName])] := by
  have asked := @attempt_runGit answers GitError repoPath ["checkout".toList, branchName] []
  rw [List.nil_append, answer] at asked
  rw [GitFailures.checkout, bind_of_ok asked]
  dsimp only
  rw [if_neg absent]
  exact ⟨_, rfl⟩

theorem verdict_checkout
    (answer : reported endings.inRepository 30000 [(repoPath, ["checkout".toList, branchName])] =
      .error message) :
    (Call.checkout repoPath branchName).verdict endings =
      some (if shows missingBranchPhrases message then .expected else .unexpected) := by
  by_cases shown : shows missingBranchPhrases message = true
  · rw [if_pos shown]
    exact if_pos (checkout_creates answer shown)
  · rcases checkout_surfaces answer shown with ⟨error, ran⟩
    rw [if_neg shown, verdict, ran]
    apply if_neg
    intro member
    have same := List.mem_singleton.mp member
    simp at same

theorem verdict_commitAllChanges
    (dirty : ∃ trace, (hasUncommittedChanges (reported endings.inRepository 10000)
      workingPath).run [] = .ok true trace)
    (added : ∃ stdout, endings.inRepository [(workingPath, statusArguments),
      (workingPath, ["add".toList, "-A".toList])] = .ok stdout)
    (answer : reported endings.inRepository 10000 [(workingPath, statusArguments),
      (workingPath, ["add".toList, "-A".toList]),
      (workingPath, ["commit".toList, "-m".toList, message])] = .error text) :
    (Call.commitAllChanges workingPath message).verdict endings =
      some (if mentions text "nothing to commit" then .expected else .unexpected) := by
  rcases dirty with ⟨trace, changed⟩
  rcases added with ⟨stdout, staged⟩
  have traced := hasUncommittedChanges_run (reported endings.inRepository 10000) workingPath []
  rw [changed, List.nil_append] at traced
  have status : trace = [(workingPath, statusArguments)] := congrArg Outcome.final traced
  rw [status] at changed
  have add := @attempt_runGit (reported endings.inRepository 10000) GitError workingPath
    ["add".toList, "-A".toList] [(workingPath, statusArguments)]
  have ok : reported endings.inRepository 10000 ([(workingPath, statusArguments)] ++
      [(workingPath, ["add".toList, "-A".toList])]) = .ok stdout := by
    rw [List.singleton_append, reported, staged]
  rw [ok] at add
  have commit := @attempt_runGit (reported endings.inRepository 10000) GitError workingPath
    ["commit".toList, "-m".toList, message] ([(workingPath, statusArguments)] ++
      [(workingPath, ["add".toList, "-A".toList])])
  have failed : reported endings.inRepository 10000 ([(workingPath, statusArguments)] ++
      [(workingPath, ["add".toList, "-A".toList])] ++
        [(workingPath, ["commit".toList, "-m".toList, message])]) = .error text := answer
  rw [failed] at commit
  rw [verdict, GitFailures.commitAllChanges, bind_of_ok changed]
  dsimp only
  rw [Bool.not_true, if_neg Bool.false_ne_true, bind_of_ok add]
  dsimp only
  rw [bind_of_ok commit]
  dsimp only
  cases mentions text "nothing to commit" with
  | true => rfl
  | false => rfl

theorem verdict_isBranchMerged (answer : reported endings.inRepository 0
      [(repoPath, ["branch".toList, "--merged".toList, mainBranch])] = .error message) :
    (Call.isBranchMerged repoPath branchName mainBranch).verdict endings =
      some (if shows ["not a git repository", "unknown revision", "no such file"] message then
        .expected else .unexpected) := by
  have asked := @attempt_runGit (reported endings.inRepository 0) GitError repoPath
    ["branch".toList, "--merged".toList, mainBranch] []
  rw [List.nil_append, answer] at asked
  have either : shows ["not a git repository", "unknown revision", "no such file"] message =
      (mentions message "not a git repository" || mentions message "unknown revision" ||
        mentions message "no such file") := by
    rw [shows, List.any_cons, List.any_cons, List.any_cons, List.any_nil, Bool.or_false,
      Bool.or_assoc]
  rw [either, verdict, GitListing.isBranchMerged, bind_of_ok asked]
  dsimp only
  split
  · rfl
  · rfl

theorem verdict_isPatchEquivalent (answer : reported endings.inRepository 15000
      [(repoPath, ["cherry".toList, baseBranch, branchName])] = .error message) :
    (Call.isPatchEquivalent repoPath branchName baseBranch).verdict endings =
      some (if shows notEquivalentPhrases message then .expected else .unexpected) := by
  have asked := @attempt_runGit (reported endings.inRepository 15000) GitError repoPath
    ["cherry".toList, baseBranch, branchName] []
  rw [List.nil_append, answer] at asked
  rw [verdict, GitFailures.isPatchEquivalent, bind_of_ok asked]
  dsimp only
  split
  · rfl
  · rfl

theorem verdict_isAncestorOf
    (answer : reported endings.inRepository 0 [(workingPath, ancestorArguments ancestorRef)] =
      .error message) :
    (Call.isAncestorOf workingPath ancestorRef).verdict endings =
      some (if tolerated message then .expected else .unexpected) := by
  rw [verdict, @isAncestorOf_of_error _ workingPath ancestorRef [] message answer]
  split
  · rfl
  · rfl

theorem cloneVerdict_cloneError (url : List Char) (targetPath : Path) (sanitized : List Char) :
    cloneVerdict (cloneError url targetPath sanitized) =
      GitFunction.cloneRepository.verdictOf
        (firstClass GitFunction.cloneRepository.classes sanitized) := by
  rw [cloneError, GitFunction.classes, firstClass]
  simp only [List.findIdx_cons, List.findIdx_nil]
  cases shows ["not found", "404"] sanitized with
  | true => rfl
  | false =>
      cases shows ["authentication failed", "could not read"] sanitized with
      | true => rfl
      | false =>
          cases shows ["no space"] sanitized with
          | true => rfl
          | false => rfl

theorem reported_exit {endings : GitEndings} (failed : FailsWith code stderr (endings trace))
    (timeoutMs : Nat) :
    reported endings timeoutMs trace =
      .error (commandFailed (lastArguments trace) code stderr) := by
  rcases failed with ⟨acted, ending⟩
  rw [reported, ending]
  rfl

variable {call : Call}

theorem verdictOf_single (single : call.function.classes = [phrases]) (plain : call.token = none)
    (either : ∀ index, call.function.verdictOf index =
      if index = 0 then .expected else .unexpected) :
    call.function.verdictOf (firstClass call.function.classes (sanitize call.token message)) =
      if shows phrases message then .expected else .unexpected := by
  rw [either, single, plain, firstClass_single, sanitize]
  split
  · rfl
  · rfl

theorem verdict_of_reaches (reaches : call.Reaches endings code stderr) :
    call.verdict endings = some (call.function.verdictOf (firstClass call.function.classes
      (sanitize call.token (commandFailed call.arguments code stderr)))) := by
  cases call with
  | checkout repoPath branchName =>
      apply (verdict_checkout (reported_exit reaches 30000)).trans
      exact congrArg some (verdictOf_single rfl rfl fun _ => rfl).symm
  | commitAllChanges workingPath message =>
      rcases reaches with ⟨dirty, added, failed⟩
      apply (verdict_commitAllChanges dirty added (reported_exit failed 10000)).trans
      rw [← shows_singleton]
      exact congrArg some (verdictOf_single rfl rfl fun _ => rfl).symm
  | isBranchMerged repoPath branchName mainBranch =>
      apply (verdict_isBranchMerged (reported_exit reaches 0)).trans
      exact congrArg some (verdictOf_single rfl rfl fun _ => rfl).symm
  | isPatchEquivalent repoPath branchName baseBranch =>
      apply (verdict_isPatchEquivalent (reported_exit reaches 15000)).trans
      exact congrArg some (verdictOf_single rfl rfl fun _ => rfl).symm
  | isAncestorOf workingPath ancestorRef =>
      apply (verdict_isAncestorOf (reported_exit reaches 0)).trans
      exact congrArg some (verdictOf_single rfl rfl fun _ => rfl).symm
  | cloneRepository url targetPath token =>
      rcases reaches with ⟨cloneUrl, authentic, acted, ending⟩
      have asked : (Call.cloneRepository url targetPath token).arguments =
          ["clone".toList, cloneUrl, targetPath] := by
        rw [arguments, authentic]
      rw [verdict, cloneRepository_of_authenticated authentic ending, asked]
      exact congrArg some (cloneVerdict_cloneError url targetPath _)

/-! ## Two runs -/

def AsksGit : Call → Prop
  | .cloneRepository url _ token => ∃ cloneUrl, authenticated url token = .ok cloneUrl
  | _ => True

def OneLineToken (call : Call) : Prop :=
  ∀ token ∈ call.token, '\n' ∉ token

def argumentClass (call : Call) : Nat :=
  firstClass call.function.classes (sanitize call.token (commandLine call.arguments))

def reportClass (call : Call) (code : Int) (stderr : List Char) : Nat :=
  firstClass call.function.classes (sanitize call.token (ownReport code stderr))

theorem sanitize_lines {token : Option (List Char)} (line : ∀ own ∈ token, '\n' ∉ own)
    (left right : List Char) :
    sanitize token (left ++ '\n' :: right) =
      sanitize token left ++ '\n' :: sanitize token right := by
  cases token with
  | none => rfl
  | some own => exact Text.replace_separated (line own rfl) left right

theorem firstClass_report (line : call.OneLineToken) (code : Int) (stderr : List Char) :
    firstClass call.function.classes
        (sanitize call.token (commandFailed call.arguments code stderr)) =
      min call.argumentClass (call.reportClass code stderr) := by
  rw [commandFailed_eq, sanitize_lines line, firstClass_lines call.function.oneLine_classes]
  rfl

theorem exists_reaches (asks : call.AsksGit) (code : Int) (stderr : List Char) :
    ∃ endings, call.Reaches endings code stderr := by
  let failing : Endings :=
    { inRepository := fun _ => .error (.exit code stderr false)
      clone := fun _ => .error (.exit code stderr false) }
  cases call with
  | commitAllChanges workingPath message =>
      let committing : GitEndings := fun trace =>
        if trace = [(workingPath, statusArguments), (workingPath, ["add".toList, "-A".toList]),
            (workingPath, ["commit".toList, "-m".toList, message])] then
          .error (.exit code stderr false)
        else .ok ['M']
      have other : committing [(workingPath, statusArguments)] = .ok ['M'] := if_neg (by simp)
      have status : reported committing 10000 [(workingPath, statusArguments)] = .ok ['M'] := by
        rw [reported, other]
      have dirty : (hasUncommittedChanges (reported committing 10000) workingPath).run [] =
          .ok true [(workingPath, statusArguments)] := by
        rw [hasUncommittedChanges_run, List.nil_append, status]
        rfl
      refine ⟨{ failing with inRepository := committing }, ⟨_, dirty⟩, ⟨['M'], ?_⟩, false, ?_⟩
      · exact if_neg (by simp)
      · exact if_pos rfl
  | checkout repoPath branchName => exact ⟨failing, false, rfl⟩
  | isBranchMerged repoPath branchName mainBranch => exact ⟨failing, false, rfl⟩
  | isPatchEquivalent repoPath branchName baseBranch => exact ⟨failing, false, rfl⟩
  | isAncestorOf workingPath ancestorRef => exact ⟨failing, false, rfl⟩
  | cloneRepository url targetPath token =>
      rcases asks with ⟨cloneUrl, authentic⟩
      exact ⟨failing, cloneUrl, authentic, false, rfl⟩

/-- A failure is taken for the same thing exactly if git's own report shows its class, or an
earlier one, before the arguments do, or if both command lines show the same class. -/
theorem classifiedAlike_iff (code : Int) (stderr : List Char) (first second : Call)
    (same : SameFunction first second) (firstAsks : first.AsksGit) (secondAsks : second.AsksGit)
    (line : first.OneLineToken) :
    ClassifiedAlike code stderr first second ↔
      (first.reportClass code stderr ≤ first.argumentClass ∧
        first.reportClass code stderr ≤ second.argumentClass) ∨
      first.argumentClass = second.argumentClass := by
  have otherLine : second.OneLineToken := by
    rw [OneLineToken, ← same.token]
    exact line
  have report : second.reportClass code stderr = first.reportClass code stderr := by
    rw [reportClass, reportClass, same.function, same.token]
  have classes : min first.argumentClass (first.reportClass code stderr) =
      min second.argumentClass (first.reportClass code stderr) ↔
        (first.reportClass code stderr ≤ first.argumentClass ∧
          first.reportClass code stderr ≤ second.argumentClass) ∨
        first.argumentClass = second.argumentClass := by
    omega
  rw [← classes]
  constructor
  · intro alike
    rcases exists_reaches firstAsks code stderr with ⟨endings, reaches⟩
    rcases exists_reaches secondAsks code stderr with ⟨others, reachesOther⟩
    have verdicts := alike endings others reaches reachesOther
    rw [verdict_of_reaches reaches, verdict_of_reaches reachesOther, firstClass_report line,
      firstClass_report otherLine, report, ← same.function, Option.some.injEq] at verdicts
    apply first.function.verdictOf_injective _ ?_ _ ?_ verdicts
    · exact Nat.le_trans (Nat.min_le_left _ _) List.findIdx_le_length
    · rw [same.function]
      exact Nat.le_trans (Nat.min_le_left _ _) List.findIdx_le_length
  · intro alike endings others reaches reachesOther
    rw [verdict_of_reaches reaches, verdict_of_reaches reachesOther, firstClass_report line,
      firstClass_report otherLine, report, alike, same.function]

def commit (message : String) : Call :=
  .commitAllChanges "/w".toList message.toList

theorem sameFunction_commit (first second : String) :
    SameFunction (commit first) (commit second) := ⟨rfl, rfl⟩

theorem classifiedAlike_commit :
    ClassifiedAlike 1 "hook failed".toList (commit "fix") (commit "feat") := by
  apply (classifiedAlike_iff 1 "hook failed".toList (commit "fix") (commit "feat")
    (sameFunction_commit _ _) trivial trivial (by intro token member; cases member)).mpr
  apply Or.inr
  decide +kernel

theorem not_classifiedAlike_commit :
    ¬∀ (code : Int) (stderr : List Char) (first second : Call), SameFunction first second →
      ClassifiedAlike code stderr first second := by
  intro always
  have alike := always 1 "hook failed".toList (commit "nothing to commit") (commit "fix")
    (sameFunction_commit _ _)
  have firstAsks : (commit "nothing to commit").AsksGit := trivial
  have secondAsks : (commit "fix").AsksGit := trivial
  rcases exists_reaches firstAsks 1 "hook failed".toList with ⟨endings, reaches⟩
  rcases exists_reaches secondAsks 1 "hook failed".toList with ⟨others, reachesOther⟩
  have verdicts := alike endings others reaches reachesOther
  rw [verdict_of_reaches reaches, verdict_of_reaches reachesOther] at verdicts
  have imitated : firstClass (commit "nothing to commit").function.classes
      (sanitize (commit "nothing to commit").token
        (commandFailed (commit "nothing to commit").arguments 1 "hook failed".toList)) = 0 := by
    decide +kernel
  have plain : firstClass (commit "fix").function.classes (sanitize (commit "fix").token
      (commandFailed (commit "fix").arguments 1 "hook failed".toList)) = 1 := by
    decide +kernel
  rw [imitated, plain] at verdicts
  cases verdicts

end Call

end GitFailures

end HarnessAgent
