import HarnessAgent.Foundation.Replacement
import HarnessAgent.Isolation.GitListings

/-! # How failures of git are read

A failed command is reported as one text: the command line, what git wrote, and the exit
code. The callers look for phrases in all of it.
-/

namespace HarnessAgent

open LexicalPath StatefulRun WorkspaceSync GitListing

/-! ## Reports -/

/-- How the last command of a trace ends: with its output, or with a failure. -/
abbrev GitEndings := GitTrace → Except Fault (List Char)

namespace GitFailures

def lastArguments (trace : GitTrace) : List (List Char) :=
  match trace.getLast? with
  | none => []
  | some (path, arguments) => "-C".toList :: path :: arguments

def reported (endings : GitEndings) (timeoutMs : Nat) : GitAnswers := fun trace =>
  match endings trace with
  | .ok stdout => .ok stdout
  | .error fault => .error (fault.message timeoutMs (lastArguments trace))

def commandLine (arguments : List (List Char)) : List Char :=
  "Command failed: git ".toList ++ List.intercalate " ".toList arguments

def exitLine (code : Int) : List Char :=
  "Process exited with code ".toList ++ (toString code).toList

def ownReport (code : Int) (stderr : List Char) : List Char :=
  if (Text.trim stderr).isEmpty then exitLine code else Text.trim stderr ++ '\n' :: exitLine code

theorem report_eq {command wrote : List Char} (single : newline = ['\n'])
    (started : exited = '\n' :: line) (code : List Char) :
    (if wrote.isEmpty then command ++ (exited ++ code)
      else command ++ newline ++ wrote ++ (exited ++ code)) =
      command ++ '\n' ::
        (if wrote.isEmpty then line ++ code else wrote ++ '\n' :: (line ++ code)) := by
  rw [single, started]
  split
  · rw [List.cons_append]
  · simp only [List.append_assoc, List.cons_append, List.nil_append]

theorem commandFailed_eq (arguments : List (List Char)) (code : Int) (stderr : List Char) :
    commandFailed arguments code stderr =
      commandLine arguments ++ '\n' :: ownReport code stderr := by
  have started : "\nProcess exited with code ".toList =
      '\n' :: "Process exited with code ".toList := by
    decide +kernel
  exact report_eq rfl started (toString code).toList

/-! ## Phrases -/

def shows (phrases : List String) (text : List Char) : Bool :=
  phrases.any (mentions text)

def firstClass (classes : List (List String)) (text : List Char) : Nat :=
  classes.findIdx (shows · text)

def OneLine (phrases : List String) : Prop :=
  ∀ phrase ∈ phrases, '\n' ∉ phrase.toList

theorem mentions_iff (text : List Char) (phrase : String) :
    mentions text phrase = true ↔ phrase.toList <:+: Text.lowercase text :=
  Text.occurs_iff_infix _ _

theorem mentions_lines (left right : List Char) (line : '\n' ∉ phrase.toList) :
    mentions (left ++ '\n' :: right) phrase = (mentions left phrase || mentions right phrase) := by
  have lower : Text.lowercase (left ++ '\n' :: right) =
      Text.lowercase left ++ '\n' :: Text.lowercase right := by
    rw [Text.lowercase, List.flatMap_append, List.flatMap_cons]
    rfl
  rw [Bool.eq_iff_iff, Bool.or_eq_true, mentions_iff, mentions_iff, mentions_iff, lower,
    Text.infix_separated_iff line]

theorem shows_lines (line : OneLine phrases) (left right : List Char) :
    shows phrases (left ++ '\n' :: right) = (shows phrases left || shows phrases right) := by
  induction phrases with
  | nil => rfl
  | cons phrase phrases induction =>
      have inRest : shows phrases (left ++ '\n' :: right) =
          (shows phrases left || shows phrases right) :=
        induction fun other member => line other (List.mem_cons_of_mem _ member)
      have here := mentions_lines left right (line phrase List.mem_cons_self)
      simp only [shows, List.any_cons] at inRest ⊢
      rw [inRest, here]
      ac_rfl

theorem findIdx_or {α : Type} (first second : α → Bool) (values : List α) :
    values.findIdx (fun value => first value || second value) =
      min (values.findIdx first) (values.findIdx second) := by
  induction values with
  | nil => rfl
  | cons value values induction =>
      rw [List.findIdx_cons, List.findIdx_cons, List.findIdx_cons, induction]
      cases first value with
      | true => simp
      | false =>
          cases second value with
          | true => simp
          | false => simp [Nat.add_min_add_right]

theorem firstClass_lines (lines : ∀ phrases ∈ classes, OneLine phrases) (left right : List Char) :
    firstClass classes (left ++ '\n' :: right) =
      min (firstClass classes left) (firstClass classes right) := by
  rw [firstClass, firstClass, firstClass, ← findIdx_or]
  induction classes with
  | nil => rfl
  | cons phrases classes induction =>
      rw [List.findIdx_cons, List.findIdx_cons, shows_lines (lines phrases List.mem_cons_self),
        induction fun other member => lines other (List.mem_cons_of_mem _ member)]

/-! ## The callers -/

def missingBranchPhrases : List String :=
  ["did not match any file", "pathspec", "doesn't exist"]

def notEquivalentPhrases : List String :=
  ["not a git repository", "unknown revision", "bad revision", "no such file"]

def notAncestorPhrases : List String :=
  ["not a git repository", "unknown revision", "not a valid object name", "no such file"]

def ancestorError (workingPath : Path) (ancestorRef message : List Char) : GitError :=
  .process ("Failed to check if ".toList ++ ancestorRef ++ " is ancestor of HEAD at ".toList ++
    workingPath ++ ": ".toList ++ message)

section

variable (answers : GitAnswers)

def checkout (repoPath : Path) (branchName : BranchName) :
    StatefulRun GitError GitTrace Unit := do
  match ← attempt (runGit answers repoPath ["checkout".toList, branchName]) with
  | .ok _ => pure ()
  | .error message =>
      if shows missingBranchPhrases message then
        let _ ← StatefulRun.mapError GitError.process
          (runGit answers repoPath ["checkout".toList, "-b".toList, branchName])
        pure ()
      else
        fail (.process
          ("Failed to checkout branch ".toList ++ branchName ++ ": ".toList ++ message))

def hasUncommittedChanges (workingPath : Path) : StatefulRun GitError GitTrace Bool := do
  match ← attempt (runGit answers workingPath ["status".toList, "--porcelain".toList]) with
  | .ok stdout => pure !(Text.trim stdout).isEmpty
  | .error message =>
      if mentions message "no such file or directory" then pure false
      else pure true

def commitAllChanges (workingPath : Path) (message : List Char) :
    StatefulRun GitError GitTrace Bool := do
  let failed (text : List Char) : StatefulRun GitError GitTrace Bool :=
    fail (.process ("Failed to commit changes in ".toList ++ workingPath ++ ": ".toList ++ text))
  if !(← hasUncommittedChanges answers workingPath) then pure false
  else
    match ← attempt (runGit answers workingPath ["add".toList, "-A".toList]) with
    | .error text => failed (processError text)
    | .ok _ =>
        match ← attempt (runGit answers workingPath ["commit".toList, "-m".toList, message]) with
        | .ok _ => pure true
        | .error text => if mentions text "nothing to commit" then pure false else failed text

def isPatchEquivalent (repoPath : Path) (branchName baseBranch : BranchName) :
    StatefulRun GitError GitTrace Bool := do
  match ← attempt (runGit answers repoPath ["cherry".toList, baseBranch, branchName]) with
  | .ok stdout =>
      let lines := ((stdout.splitOn '\n').map Text.trim).filter (!·.isEmpty)
      pure (lines.all fun line => "-".toList.isPrefixOf line)
  | .error message =>
      if shows notEquivalentPhrases message then pure false
      else
        fail (.process ("Failed to check if ".toList ++ branchName ++
          " is patch-equivalent to ".toList ++ baseBranch ++ ": ".toList ++ message))

def isAncestorOf (workingPath : Path) (ancestorRef : List Char) :
    StatefulRun GitError GitTrace Bool := do
  match ← attempt (runGit answers workingPath
      ["merge-base".toList, "--is-ancestor".toList, ancestorRef, "HEAD".toList]) with
  | .ok _ => pure true
  | .error message =>
      if mentions message "process exited with code 1" then pure false
      else if shows notAncestorPhrases message then pure false
      else
        fail (ancestorError workingPath ancestorRef message)

end

end GitFailures

end HarnessAgent
