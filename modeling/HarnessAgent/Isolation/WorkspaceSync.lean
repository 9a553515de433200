import HarnessAgent.Isolation.WorktreeProvider

/-! # Clones that are managed

Before a worktree is created, its repository is brought up to date with `origin`. Only
a clone in the workspaces directory may be reset for that, and two other functions read
the owner and the name of a clone off its place there. What the code takes for such a
place is compared with the directories that are there.
-/

namespace HarnessAgent

open LexicalPath StatefulRun

/-! ## Git commands -/

abbrev GitTrace := List (Path × List (List Char))

/-- The output of the last command of a trace, or the message of its failure. -/
abbrev GitAnswers := GitTrace → Except (List Char) (List Char)

inductive GitError where
  | emptyPath (text : List Char)
  | process (message : List Char)
  deriving DecidableEq, Repr

def GitError.text : GitError → List Char
  | .emptyPath text => text
  | .process message => processError message

structure WorkspaceSyncResult where
  branch : BranchName
  synced : Bool
  previousHead : List Char
  newHead : List Char
  updated : Bool
  deriving DecidableEq, Repr

namespace WorkspaceSync

section

variable (answers : GitAnswers)

def runGit (path : Path) (arguments : List (List Char)) :
    StatefulRun (List Char) GitTrace (List Char) where
  run trace :=
    match answers (trace ++ [(path, arguments)]) with
    | .ok stdout => .ok stdout (trace ++ [(path, arguments)])
    | .error message => .error message (trace ++ [(path, arguments)])

theorem attempt_runGit {ε : Type} (path : Path) (arguments : List (List Char)) (trace : GitTrace) :
    (attempt (runGit answers path arguments) : StatefulRun ε GitTrace _).run trace =
      .ok (answers (trace ++ [(path, arguments)])) (trace ++ [(path, arguments)]) := by
  rw [attempt, runGit]
  dsimp only
  cases answers (trace ++ [(path, arguments)]) with
  | ok stdout => rfl
  | error message => rfl

def toGitBranchName (name : BranchName) : Except GitError BranchName :=
  if name = [] then .error (.emptyPath "BranchName cannot be empty".toList) else .ok name

def trimStartMatches (pattern : List Char) : Nat → List Char → List Char
  | 0, text => text
  | fuel + 1, text =>
      if pattern.isPrefixOf text then trimStartMatches pattern fuel (text.drop pattern.length)
      else text

def mentions (message : List Char) (pattern : String) : Bool :=
  Text.occurs pattern.toList (Text.lowercase message)

def getDefaultBranch (repoPath : Path) : StatefulRun GitError GitTrace BranchName := do
  let failed (message : List Char) : StatefulRun GitError GitTrace BranchName :=
    fail (.process ("Failed to get default branch for ".toList ++ repoPath ++ ": ".toList ++ message))
  match ← attempt (runGit answers repoPath
      ["symbolic-ref".toList, "refs/remotes/origin/HEAD".toList, "--short".toList]) with
  | .ok stdout =>
      ofExcept (toGitBranchName
        (trimStartMatches "origin/".toList stdout.length (Text.trim stdout)))
  | .error message =>
      if mentions message "not a symbolic ref" || mentions message "no such file or directory" then
        match ← attempt (runGit answers repoPath
            ["rev-parse".toList, "--verify".toList, "origin/main".toList]) with
        | .ok _ => ofExcept (toGitBranchName "main".toList)
        | .error message =>
            if mentions message "not a valid object name" ||
                mentions message "needed a single revision" || mentions message "unknown revision" then
              fail (.process ("Cannot detect default branch for ".toList ++ repoPath ++
                ": neither origin/HEAD nor origin/main exist. Set worktree.baseBranch in .archon/config.yaml to specify the branch explicitly.".toList))
            else failed message
      else failed message

def branchToSync (workspacePath : Path) :
    Option BranchName → StatefulRun GitError GitTrace BranchName
  | some branch => pure branch
  | none => getDefaultBranch answers workspacePath

def syncWorkspace (workspacePath : Path) (baseBranch : Option BranchName)
    (resetAfterFetch : Bool) : StatefulRun GitError GitTrace WorkspaceSyncResult := do
  let branchToSync ← branchToSync answers workspacePath baseBranch
  match ← attempt (runGit answers workspacePath
      ["fetch".toList, "origin".toList, branchToSync]) with
  | .error message =>
      if baseBranch.isSome &&
          (mentions message "couldn't find remote ref" || mentions message "not found") then
        fail (.process ("Configured base branch '".toList ++ branchToSync ++
          "' not found on remote. Either create the branch, update worktree.baseBranch in .archon/config.yaml, or remove the setting to use the auto-detected default branch.".toList))
      else
        fail (.process ("Sync fetch from origin/".toList ++ branchToSync ++ " failed: ".toList ++
          message))
  | .ok _ =>
      if !resetAfterFetch then
        pure { branch := branchToSync, synced := true, previousHead := [], newHead := [],
               updated := false }
      else do
        let readHead := attempt (runGit answers workspacePath
          ["rev-parse".toList, "--short=8".toList, "HEAD".toList])
        let head (answer : Except (List Char) (List Char)) : List Char :=
          match answer with
          | .ok stdout => Text.trim stdout
          | .error _ => []
        let remoteRef := "origin/".toList ++ branchToSync
        let previousHead := head (← readHead)
        let _ ← StatefulRun.mapError
          (fun message => GitError.process ("Reset to ".toList ++ remoteRef ++ " failed: ".toList ++
            processError message))
          (runGit answers workspacePath ["reset".toList, "--hard".toList, remoteRef])
        let newHead := head (← readHead)
        pure { branch := branchToSync, synced := true, previousHead, newHead,
               updated := !previousHead.isEmpty && previousHead ≠ newHead }

end

/-! ## The workspaces directory -/

def slashed (path : Path) : Path :=
  path.map fun character => if character = '\\' then '/' else character

open WorktreeProvider in
def isManagedClone (archonHome : Except (List Char) Path) (repoPath : Path) : Bool :=
  match getArchonWorkspacesPath archonHome with
  | .ok workspaces => (slashed workspaces).isPrefixOf (slashed repoPath)
  | .error _ => false

def syncError (repoPath : Path) (error : GitError) : IsolationError :=
  if mentions error.text "permission denied" then
    .other ("Permission denied accessing repository at ".toList ++ repoPath ++
      ". Check file permissions and try again.".toList)
  else if mentions error.text "not a git repository" then
    .other (repoPath ++ " is not a valid git repository. Ensure the workspace was cloned correctly.".toList)
  else if mentions error.text "configured base branch" then .other error.text
  else
    .other ("Failed to fetch base branch from origin: ".toList ++ error.text ++
      ". Check your network connection and try again.".toList)

open WorktreeProvider in
def syncWorkspaceBeforeCreate (archonHome : Except (List Char) Path) (answers : GitAnswers)
    (repoPath : Path) (configuredBaseBranch : Option BranchName) :
    StatefulRun IsolationError GitTrace BranchName := do
  let repo ← ofExcept (toRepoPath repoPath)
  let baseBranch ← ofExcept (configuredBaseBranch.mapM toBranchName)
  let sync ← StatefulRun.mapError (syncError repoPath)
    (syncWorkspace answers repo baseBranch (isManagedClone archonHome repoPath))
  pure sync.branch

open WorktreeProvider in
def resolveProjectRootFromCwd (archonHome : Except (List Char) Path) (cwd : Path) :
    Except (List Char) (Option Path) := do
  let workspaces ← getArchonWorkspacesPath archonHome
  if !workspaces.isPrefixOf cwd then .ok none
  else
    let relative := ((cwd.drop workspaces.length).dropWhile (· = '/')).dropWhile (· = '\\')
    match separated relative with
    | owner :: repo :: _ => .ok (some (join (join workspaces owner) repo))
    | _ => .ok none

/-! ## Resets -/

def isReset (command : Path × List (List Char)) : Bool :=
  ["reset".toList, "--hard".toList].isPrefixOf command.2

def AsksForReset (trace : GitTrace) : Prop :=
  ∃ command ∈ trace, isReset command = true

def NoNewReset (before after : GitTrace) : Prop :=
  AsksForReset after → AsksForReset before

instance : Std.Refl NoNewReset where
  refl _ := id

instance : IsTrans GitTrace NoNewReset where
  trans _ _ _ first second := fun asks => first (second asks)

section

variable (answers : GitAnswers)

theorem noNewReset_runGit (path : Path) (other : isReset (path, arguments) = false) :
    Leads NoNewReset (runGit answers path arguments) := by
  intro trace
  have added : AsksForReset (trace ++ [(path, arguments)]) → AsksForReset trace := by
    intro asks
    rcases asks with ⟨command, member, reset⟩
    rcases List.mem_append.mp member with old | new
    · exact ⟨command, old, reset⟩
    · rw [List.mem_singleton.mp new, other] at reset
      cases reset
  rw [runGit]
  dsimp only
  cases answers (trace ++ [(path, arguments)]) with
  | ok stdout => exact added
  | error message => exact added

theorem noNewReset_getDefaultBranch (repoPath : Path) :
    Leads NoNewReset (getDefaultBranch answers repoPath) := by
  refine leads_bind (leads_attempt (noNewReset_runGit answers repoPath rfl)) ?_
  intro answer
  cases answer with
  | ok stdout => exact leads_ofExcept _
  | error message =>
      dsimp only
      split
      · refine leads_bind (leads_attempt (noNewReset_runGit answers repoPath rfl)) ?_
        intro answer
        cases answer with
        | ok stdout => exact leads_ofExcept _
        | error message =>
            dsimp only
            split
            · exact leads_fail _
            · exact leads_fail _
      · exact leads_fail _

theorem noNewReset_syncWorkspace (workspacePath : Path) (baseBranch : Option BranchName) :
    Leads NoNewReset (syncWorkspace answers workspacePath baseBranch false) := by
  have branches : Leads NoNewReset (branchToSync answers workspacePath baseBranch) := by
    cases baseBranch with
    | some branch => exact leads_pure branch
    | none => exact noNewReset_getDefaultBranch answers workspacePath
  refine leads_bind branches ?_
  intro branch
  refine leads_bind (leads_attempt (noNewReset_runGit answers workspacePath rfl)) ?_
  intro answer
  cases answer with
  | error message =>
      dsimp only
      split
      · exact leads_fail _
      · exact leads_fail _
  | ok stdout => exact leads_pure _

theorem noNewReset_syncWorkspaceBeforeCreate
    (unmanaged : isManagedClone archonHome repoPath = false)
    (configuredBaseBranch : Option BranchName) :
    Leads NoNewReset
      (syncWorkspaceBeforeCreate archonHome answers repoPath configuredBaseBranch) := by
  rw [syncWorkspaceBeforeCreate, unmanaged]
  refine leads_bind (leads_ofExcept _) ?_
  intro repo
  refine leads_bind (leads_ofExcept _) ?_
  intro baseBranch
  refine leads_bind (leads_mapError _ (noNewReset_syncWorkspace answers repo baseBranch)) ?_
  intro sync
  exact leads_pure _

end

variable {archonHome : Except (List Char) Path}

theorem asksForReset_of_managed (managed : isManagedClone archonHome repoPath = true)
    (named : repoPath ≠ []) :
    AsksForReset ((syncWorkspaceBeforeCreate archonHome (fun _ => .ok []) repoPath
      (some "main".toList)).run []).final := by
  rw [syncWorkspaceBeforeCreate, managed, WorktreeProvider.toRepoPath, if_neg named]
  refine ⟨(repoPath, ["reset".toList, "--hard".toList, "origin/main".toList]), ?_, rfl⟩
  exact List.mem_cons_of_mem _ (List.mem_cons_of_mem _ List.mem_cons_self)

/-! ## Places in the workspaces directory -/

/-- A path is the workspaces directory or lies in it, by its components; a backslash
separates like a slash. -/
def Under (workspaces path : Path) : Prop :=
  components (slashed workspaces) <+: components (slashed path)

/-- A text that begins like the workspaces directory ends there or goes on with a
separator. -/
def LeavesAtSeparator (workspaces path : Path) : Prop :=
  ∀ rest, slashed path = slashed workspaces ++ rest → rest = [] ∨ rest.head? = some '/'

theorem slashed_append (left right : Path) : slashed (left ++ right) = slashed left ++ slashed right :=
  List.map_append

theorem slashed_workspaces {workspaces : Path}
    (found : WorktreeProvider.getArchonWorkspacesPath archonHome = .ok workspaces) :
    ∃ front, EndsBeforeName front ∧ slashed workspaces = front ++ "workspaces".toList := by
  have plain : slashed "workspaces".toList = "workspaces".toList := by decide
  have relative : isAbsolute "workspaces".toList = false := by decide
  cases archonHome with
  | error error => cases found
  | ok home =>
      have joined : workspaces = join home "workspaces".toList := (Except.ok.inj found).symm
      cases home with
      | nil =>
          subst joined
          exact ⟨[], Or.inl rfl, plain⟩
      | cons first text =>
          rw [join_of_relative (List.cons_ne_nil _ _) relative] at joined
          subst joined
          split
          next ends =>
            rcases List.getLast?_eq_some_iff.mp ends with ⟨outer, whole⟩
            refine ⟨slashed outer ++ ['/'], Or.inr ⟨_, rfl⟩, ?_⟩
            rw [whole, slashed_append, slashed_append, plain]
            rfl
          next =>
            refine ⟨slashed (first :: text) ++ ['/'], Or.inr ⟨_, rfl⟩, ?_⟩
            rw [slashed_append, List.append_assoc]
            rfl

theorem under_iff {workspaces : Path}
    (found : WorktreeProvider.getArchonWorkspacesPath archonHome = .ok workspaces)
    (begins : slashed path = slashed workspaces ++ rest) :
    Under workspaces path ↔ rest = [] ∨ rest.head? = some '/' := by
  rcases slashed_workspaces found with ⟨front, ends, whole⟩
  rw [Under, begins, whole]
  exact components_isPrefix_append_iff ends ⟨by decide, by decide⟩ (by decide) (by decide) rest

theorem slashed_of_isPrefix {workspaces : Path} (begins : workspaces <+: path) :
    ∃ rest, slashed path = slashed workspaces ++ rest := by
  rcases begins with ⟨rest, rfl⟩
  exact ⟨slashed rest, slashed_append workspaces rest⟩

end WorkspaceSync

open WorkspaceSync

structure ManagedOnlyUnder (archonHome : Except (List Char) Path) (workspaces path : Path) :
    Prop where
  resets : ∀ answers configuredBaseBranch,
    AsksForReset ((syncWorkspaceBeforeCreate archonHome answers path configuredBaseBranch).run
      []).final → Under workspaces path
  ownerRepo : (WorktreeProvider.ownerRepoOfWorkspace workspaces path).isSome = true →
    Under workspaces path
  projectRoot : ∀ root, resolveProjectRootFromCwd archonHome path = .ok (some root) →
    Under workspaces path

/-- The text of the workspaces directory decides, and not its components, so that only
paths that do not go on in the middle of a name are told apart. -/
theorem managedOnlyUnder_iff (archonHome : Except (List Char) Path) (workspaces path : Path)
    (found : WorktreeProvider.getArchonWorkspacesPath archonHome = .ok workspaces) :
    ManagedOnlyUnder archonHome workspaces path ↔ LeavesAtSeparator workspaces path := by
  constructor
  · intro only rest begins
    have managed : isManagedClone archonHome path = true := by
      rw [isManagedClone, found]
      dsimp only
      rw [List.isPrefixOf_iff_prefix]
      exact ⟨rest, begins.symm⟩
    have named : path ≠ [] := by
      rintro rfl
      rcases slashed_workspaces found with ⟨front, -, whole⟩
      rw [whole] at begins
      have long := congrArg List.length begins
      simp [slashed] at long
    exact (under_iff found begins).mp
      (only.resets _ _ (asksForReset_of_managed managed named))
  · intro leaves
    have under : workspaces <+: path → Under workspaces path := by
      intro begins
      rcases slashed_of_isPrefix begins with ⟨rest, begins⟩
      exact (under_iff found begins).mpr (leaves rest begins)
    refine ⟨?_, ?_, ?_⟩
    · intro answers configuredBaseBranch asks
      cases managed : isManagedClone archonHome path with
      | true =>
          rw [isManagedClone, found] at managed
          dsimp only at managed
          rcases List.isPrefixOf_iff_prefix.mp managed with ⟨rest, begins⟩
          exact (under_iff found begins.symm).mpr (leaves rest begins.symm)
      | false =>
          have none := noNewReset_syncWorkspaceBeforeCreate answers managed configuredBaseBranch []
          rcases none asks with ⟨command, member, -⟩
          cases member
    · intro taken
      rw [WorktreeProvider.ownerRepoOfWorkspace] at taken
      split at taken
      next begins => exact under begins
      next => cases taken
    · intro root resolved
      rw [resolveProjectRootFromCwd, found] at resolved
      change (if !workspaces.isPrefixOf path then Except.ok none else _) = _ at resolved
      split at resolved
      · cases resolved
      next begins =>
        apply under
        rw [← List.isPrefixOf_iff_prefix]
        simpa using begins

namespace WorkspaceSync

def home : Except (List Char) Path := .ok "/home/me/.archon".toList

def workspaces : Path := "/home/me/.archon/workspaces".toList

end WorkspaceSync

theorem managedOnlyUnder_iff_clone :
    ManagedOnlyUnder WorkspaceSync.home WorkspaceSync.workspaces
      "/home/me/.archon/workspaces/acme/app".toList := by
  refine (managedOnlyUnder_iff _ _ _ (by decide)).mpr ?_
  intro rest begins
  right
  have whole : slashed "/home/me/.archon/workspaces/acme/app".toList =
      slashed WorkspaceSync.workspaces ++ "/acme/app".toList := by decide
  rw [← List.append_cancel_left (whole.symm.trans begins)]
  rfl

/-- A directory beside the workspaces directory is taken for a managed clone, and reset. -/
theorem managedOnlyUnder_sibling :
    ¬ManagedOnlyUnder WorkspaceSync.home WorkspaceSync.workspaces
      "/home/me/.archon/workspaces-old/acme/app".toList := by
  intro only
  have asks : AsksForReset ((syncWorkspaceBeforeCreate WorkspaceSync.home (fun _ => .ok [])
      "/home/me/.archon/workspaces-old/acme/app".toList (some "main".toList)).run []).final :=
    asksForReset_of_managed (by decide) (by decide)
  have under := only.resets _ _ asks
  rw [Under] at under
  exact absurd under (by decide)

end HarnessAgent
