import HarnessAgent.Isolation.WorktreeProvider

/-! # The isolation resolver

What the resolver hands out, and the two of its stages that take a worktree which is not
recorded yet: adopting one that has the branch of a PR, and creating a new one. The
environment is recorded in a store, and if that fails a created one is destroyed again.
-/

namespace HarnessAgent

open LexicalPath StatefulRun

inductive IsolationWorkflowType where
  | issue
  | pr
  | review
  | thread
  | task
  deriving DecidableEq, Repr

structure IsolationHints where
  workflowType : Option IsolationWorkflowType := none
  workflowId : Option (List Char) := none
  linkedIssues : Option (List Nat) := none
  prBranch : Option BranchName := none
  prSha : Option (List Char) := none
  isForkPr : Option Bool := none
  fromBranch : Option BranchName := none
  deriving DecidableEq, Repr

structure CodebaseSummary where
  id : List Char
  name : List Char
  defaultCwd : Path := []
  deriving DecidableEq, Repr

structure CreateEnvironmentParams where
  codebaseId : List Char
  workflowType : IsolationWorkflowType
  workflowId : List Char
  workingPath : Path
  branchName : BranchName
  createdByPlatform : Option (List Char) := none
  adopted : Bool := false
  deriving DecidableEq, Repr

inductive EnvironmentStatus where
  | active
  | destroyed
  deriving DecidableEq, Repr

structure IsolationEnvironmentRow extends CreateEnvironmentParams where
  id : List Char
  status : EnvironmentStatus := .active
  deriving DecidableEq, Repr

inductive ResolutionMethod where
  | existing
  | workflowReuse
  | linkedIssueReuse (issueNumber : Nat)
  | branchAdoption (branch : BranchName)
  | created (autoCleanedCount : Option Nat)
  deriving DecidableEq, Repr

inductive IsolationResolution where
  | resolved (env : IsolationEnvironmentRow) (cwd : Path) (method : ResolutionMethod)
  | staleCleaned (previousEnvId : List Char)
  | none (cwd : Path)
  | blocked (reason userMessage : List Char)
  deriving DecidableEq, Repr

structure ErrorPattern where
  pattern : List Char
  message : List Char
  known : Bool := true
  deriving DecidableEq, Repr

def errorPatterns : List ErrorPattern := [
  { pattern := "permission denied".toList
    message := "**Error:** Permission denied while creating workspace. Check file system permissions.".toList },
  { pattern := "eacces".toList
    message := "**Error:** Permission denied while creating workspace. Check file system permissions.".toList },
  { pattern := "timeout".toList
    message := "**Error:** Timed out creating workspace. Git repository may be slow or unavailable.".toList },
  { pattern := "no space left".toList
    message := "**Error:** No disk space available for new workspace.".toList },
  { pattern := "enospc".toList
    message := "**Error:** No disk space available for new workspace.".toList },
  { pattern := "not a git repository".toList
    message := "**Error:** Target path is not a valid git repository.".toList },
  { pattern := "cannot extract owner/repo".toList
    message := "**Error:** Repository path is too short to extract owner and repo name. Re-register the codebase with a full path (e.g. `/home/user/owner/repo`).".toList
    known := false },
  { pattern := "branch not found".toList
    message := "**Error:** Branch not found. The requested branch may have been deleted or not yet pushed.".toList },
  { pattern := "no base branch configured".toList
    message := "**Error:** No base branch configured. Set `worktree.baseBranch` in `.archon/config.yaml` or use the `--from` flag to select a branch (e.g., `--from dev`).".toList },
  { pattern := "belongs to a different clone".toList
    message := "**Error:** A worktree at the target path was created by a different local clone. Remove it from that clone, or register this codebase from the same local path.".toList },
  { pattern := "cannot verify worktree ownership".toList
    message := "**Error:** Cannot verify ownership of an existing worktree at the target path. Check file system permissions and remove any unrelated git directories at that path.".toList },
  { pattern := "cannot adopt".toList
    message := "**Error:** Refused to adopt an existing directory at the worktree path. Remove it or choose a different branch/codebase registration.".toList },
  { pattern := "submodule initialization failed".toList
    message := "**Error:** Submodule initialization failed. Check credentials and network access to submodule remotes, or set `worktree.initSubmodules: false` in `.archon/config.yaml` to opt out if submodules are not needed for your workflows.".toList }]

def classifyIsolationError (message : List Char) : List Char :=
  let combined := Text.lowercase (message ++ " ".toList)
  match errorPatterns.find? (Text.occurs ·.pattern combined) with
  | some known => known.message
  | none =>
      "**Error:** Could not create isolated workspace (".toList ++ message ++ ").".toList

def isKnownIsolationError (message : List Char) : Bool :=
  let combined := Text.lowercase (message ++ " ".toList)
  errorPatterns.any fun known => known.known && Text.occurs known.pattern combined

structure IsolationResolver (Location : Type) where
  provider : WorktreeProvider Location
  storeCreate : CreateEnvironmentParams → Except IsolationError (List Char)
  cleanup : Option (List Char → World Location → Nat × World Location) := none

namespace IsolationResolver

variable {Location : Type} [DecidableEq Location]

section

variable (resolver : IsolationResolver Location) (outside : Outside)

open WorktreeProvider

def tryBranchAdoption (codebase : CodebaseSummary) (canonicalRepoPath : Path)
    (hints : IsolationHints) (workflowType : IsolationWorkflowType) (workflowId : List Char) :
    Run Location (Option IsolationResolution) :=
  match hints.prBranch with
  | none => pure none
  | some branch => do
      let repoPath ← ofExcept (toRepoPath canonicalRepoPath)
      let branch ← ofExcept (toBranchName branch)
      let world ← read
      match findWorktreeByBranch resolver.provider.tree (outside.git .listWorktrees) repoPath branch
        world with
      | .error message => fail (.git message)
      | .ok none => pure none
      | .ok (some workingPath) =>
          if worktreeExists resolver.provider.tree (outside.file .findWorktree) workingPath world then do
            ownership resolver.provider outside workingPath repoPath
            let params : CreateEnvironmentParams :=
              { codebaseId := codebase.id, workflowType, workflowId, workingPath
                branchName := branch, adopted := true }
            let id ← ofExcept (resolver.storeCreate params)
            pure (some (.resolved { params with id } workingPath (.branchAdoption branch)))
          else pure none

def buildIsolationRequest (base : IsolationRequestBase) (workflowType : IsolationWorkflowType)
    (workflowId : List Char) (hints : Option IsolationHints) :
    Except IsolationError IsolationRequest :=
  match workflowType with
  | .issue => .ok (.issue base workflowId)
  | .review => .ok (.review base workflowId)
  | .thread => .ok (.thread base workflowId)
  | .task => .ok (.task base workflowId (hints.bind (·.fromBranch)))
  | .pr =>
      match hints with
      | none =>
          .error (.other "PR isolation request requires hints (prBranch, isForkPR)".toList)
      | some hints =>
          match hints.prBranch with
          | none => .error (.other "PR isolation request missing prBranch hint".toList)
          | some prBranch =>
              .ok (.pr base workflowId prBranch hints.prSha (hints.isForkPr.getD false))

/-- The destroy that makes up for a failed record; its own errors are only logged. -/
def destroyUnrecorded (env : WorktreeEnvironment) (canonicalRepoPath : Path)
    (world : World Location) : World Location :=
  ((destroy resolver.provider outside env.workingPath
    { force := some true
      branchName := some env.branchName
      canonicalRepoPath := some canonicalRepoPath }).run world).final

def persist (codebase : CodebaseSummary) (canonicalRepoPath : Path)
    (workflowType : IsolationWorkflowType) (workflowId platformType : List Char)
    (autoCleanedCount : Nat) (env : WorktreeEnvironment) : Run Location IsolationResolution where
  run world :=
    let params : CreateEnvironmentParams :=
      { codebaseId := codebase.id, workflowType, workflowId
        workingPath := env.workingPath
        branchName := env.branchName
        createdByPlatform := some platformType }
    match resolver.storeCreate params with
    | .ok id =>
        .ok (.resolved { params with id } env.workingPath
          (.created (if 0 < autoCleanedCount then some autoCleanedCount else none))) world
    | .error error =>
        .error (.other ("Failed to persist isolation environment record: ".toList ++ error.text))
          (destroyUnrecorded resolver outside env canonicalRepoPath world)

def createOrBlock (request : IsolationRequest) (onward : WorktreeEnvironment →
    Run Location IsolationResolution) : Run Location IsolationResolution where
  run world :=
    match (create resolver.provider outside request).run world with
    | .ok env next => (onward env).run next
    | .error (.panicked message) next => .error (.panicked message) next
    | .error error next =>
        if isKnownIsolationError error.text then
          .ok (.blocked "creation_failed".toList (classifyIsolationError error.text)) next
        else .error error next

def runCleanup (codebase : CodebaseSummary) : Run Location Nat where
  run world :=
    match resolver.cleanup with
    | some cleanup => .ok (cleanup codebase.id world).1 (cleanup codebase.id world).2
    | none => .ok 0 world

def createNewEnvironment (codebase : CodebaseSummary) (canonicalRepoPath : Path)
    (workflowType : IsolationWorkflowType) (workflowId : List Char)
    (hints : Option IsolationHints) (platformType : List Char) :
    Run Location IsolationResolution := do
  let autoCleanedCount ← runCleanup resolver codebase
  let request ← ofExcept (buildIsolationRequest
    { codebaseName := some codebase.name, canonicalRepoPath } workflowType workflowId hints)
  createOrBlock resolver outside request
    (persist resolver outside codebase canonicalRepoPath workflowType workflowId platformType
      autoCleanedCount)

end

end IsolationResolver

end HarnessAgent
