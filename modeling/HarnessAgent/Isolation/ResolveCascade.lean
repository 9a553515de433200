import HarnessAgent.Isolation.Resolver

/-! # The cascade of the resolver

An environment is looked for among those that are recorded, first for the workflow and
then for the issues it is linked to, then among the worktrees of the repository, and is
created if there is none.
-/

namespace HarnessAgent

open LexicalPath StatefulRun

structure ResolverState (Location : Type) where
  world : World Location
  rows : List IsolationEnvironmentRow

abbrev Resolving (Location : Type) (α : Type) :=
  StatefulRun IsolationError (ResolverState Location) α

/-- Failures during the attempt to reuse a recorded environment: of the lookup, of the
access to its worktree, of reading its `.git` entry and of marking it. -/
structure ReuseFaults where
  find : Option IsolationError := none
  access : Option IoError := none
  ownership : Option IoError := none
  update : Option IsolationError := none

/-- What happens outside of the model during a resolution. The workflow's own lookup
and those for the linked issues are told apart by their number. -/
structure ResolveOutside where
  canonical : Outside
  existing : ReuseFaults := {}
  workflow : ReuseFaults := {}
  linked : Nat → ReuseFaults := fun _ => {}
  adopting : Outside
  creating : Outside
  /-- What the cleanup does to the recorded environments. -/
  cleanRows : List IsolationEnvironmentRow → List IsolationEnvironmentRow := id

structure ResolveRequest where
  existingEnvId : Option (List Char) := none
  codebase : Option CodebaseSummary
  hints : Option IsolationHints := none
  platformType : List Char
  deriving DecidableEq, Repr

namespace IsolationStore

variable {Location : Type}

def activeFor (codebaseId : List Char) (workflowType : IsolationWorkflowType)
    (workflowId : List Char) (row : IsolationEnvironmentRow) : Bool :=
  row.codebaseId = codebaseId ∧ row.workflowType = workflowType ∧ row.workflowId = workflowId ∧
    row.status = .active

def answer {α : Type} (fault : Option IsolationError) (value : ResolverState Location → α) :
    Resolving Location α where
  run state :=
    match fault with
    | some error => .error error state
    | none => .ok (value state) state

def getById (fault : Option IsolationError) (id : List Char) :
    Resolving Location (Option IsolationEnvironmentRow) :=
  answer fault fun state => state.rows.find? (·.id = id)

def findActiveByWorkflow (fault : Option IsolationError) (codebaseId : List Char)
    (workflowType : IsolationWorkflowType) (workflowId : List Char) :
    Resolving Location (Option IsolationEnvironmentRow) :=
  answer fault fun state => state.rows.find? (activeFor codebaseId workflowType workflowId)

def withDestroyed (ids : List (List Char)) (row : IsolationEnvironmentRow) :
    IsolationEnvironmentRow :=
  if row.id ∈ ids then { row with status := .destroyed } else row

end IsolationStore

namespace IsolationResolver

variable {Location : Type} [DecidableEq Location]

open WorktreeProvider IsolationStore

section

variable (resolver : IsolationResolver Location)

/-- A part that does not touch the store. -/
def onWorld {α : Type} (first : Run Location α) : Resolving Location α where
  run state :=
    match first.run state.world with
    | .ok value world => .ok value { state with world }
    | .error error world => .error error { state with world }

def markDestroyedBestEffort (fault : Option IsolationError) (id : List Char) :
    Resolving Location Unit :=
  StatefulRun.modify fun state =>
    match fault with
    | some _ => state
    | none => { state with rows := state.rows.map (withDestroyed [id]) }

def assertWorktreeOwnership (error : Option IoError) (canonicalRepoPath workingPath : Path) :
    Run Location Unit := do
  let repoPath ← ofExcept (toRepoPath canonicalRepoPath)
  let worktreePath ← ofExcept (toWorktreePath workingPath)
  let world ← read
  ofExcept ((verifyWorktreeOwnership resolver.provider.tree error worktreePath repoPath world).mapError
    .other)

/-- A recorded environment whose worktree is missing is marked as destroyed. -/
def checkExisting (faults : ReuseFaults) (envId : List Char) :
    Resolving Location (Option IsolationResolution) := do
  match ← getById faults.find envId with
  | none => pure none
  | some row => do
      let worktreePath ← ofExcept (toWorktreePath row.workingPath)
      let state ← read
      if worktreeExists resolver.provider.tree faults.access worktreePath state.world then
        pure (some (.resolved row row.workingPath .existing))
      else do
        markDestroyedBestEffort faults.update envId
        pure none

/-- The same for an environment that is found by its workflow, which must belong to the
repository. -/
def tryReuse (faults : ReuseFaults) (codebase : CodebaseSummary) (canonicalRepoPath : Path)
    (workflowType : IsolationWorkflowType) (workflowId : List Char) (method : ResolutionMethod) :
    Resolving Location (Option IsolationResolution) := do
  match ← findActiveByWorkflow faults.find codebase.id workflowType workflowId with
  | none => pure none
  | some row => do
      let worktreePath ← ofExcept (toWorktreePath row.workingPath)
      let state ← read
      if worktreeExists resolver.provider.tree faults.access worktreePath state.world then do
        onWorld (assertWorktreeOwnership resolver faults.ownership canonicalRepoPath row.workingPath)
        pure (some (.resolved row row.workingPath method))
      else do
        markDestroyedBestEffort faults.update row.id
        pure none

def findReusableEnvironment (faults : ReuseFaults) (codebase : CodebaseSummary)
    (canonicalRepoPath : Path) (workflowType : IsolationWorkflowType) (workflowId : List Char) :
    Resolving Location (Option IsolationResolution) :=
  tryReuse resolver faults codebase canonicalRepoPath workflowType workflowId .workflowReuse

def linkedIssueLoop (faults : Nat → ReuseFaults) (codebase : CodebaseSummary)
    (canonicalRepoPath : Path) : Nat → List Nat → Resolving Location (Option IsolationResolution)
  | _, [] => pure none
  | position, issueNumber :: rest => do
      match ← tryReuse resolver (faults position) codebase canonicalRepoPath .issue
        (toString issueNumber).toList (.linkedIssueReuse issueNumber) with
      | some resolution => pure (some resolution)
      | none => linkedIssueLoop faults codebase canonicalRepoPath (position + 1) rest

def findLinkedIssueEnvironment (faults : Nat → ReuseFaults) (codebase : CodebaseSummary)
    (canonicalRepoPath : Path) (hints : IsolationHints) :
    Resolving Location (Option IsolationResolution) :=
  linkedIssueLoop resolver faults codebase canonicalRepoPath 0 (hints.linkedIssues.getD [])

def recording {α : Type} (recorded : α → Option IsolationEnvironmentRow) (first : Run Location α) :
    Resolving Location α := do
  let value ← onWorld first
  StatefulRun.modify fun state => { state with rows := state.rows ++ (recorded value).toList }
  pure value

def recordOf : IsolationResolution → Option IsolationEnvironmentRow
  | .resolved env _ _ => some env
  | _ => none

def cleanupRows (outside : ResolveOutside) : Resolving Location Unit :=
  StatefulRun.modify fun state =>
    match resolver.cleanup with
    | some _ => { state with rows := outside.cleanRows state.rows }
    | none => state

def canonicalPathOr (outside : Outside) (codebase : CodebaseSummary)
    (onward : Path → Resolving Location IsolationResolution) :
    Resolving Location IsolationResolution where
  run state :=
    match getCanonicalRepoPath resolver.provider outside codebase.defaultCwd state.world with
    | .ok repoPath => (onward repoPath).run state
    | .error (.panicked message) => .error (.panicked message) state
    | .error error =>
        let message := Text.lowercase error.text
        if Text.occurs "not a git repository".toList message ||
            Text.occurs "no such file or directory".toList message then
          .ok (.blocked "creation_failed".toList
            ("**Error:** The workspace path `".toList ++ codebase.defaultCwd ++
              "` is not a valid git repository. Please check the codebase configuration.".toList)) state
        else .error (.other error.text) state

def otherwise {α : Type} (first : Resolving Location (Option α)) (next : Resolving Location α) :
    Resolving Location α := do
  match ← first with
  | some found => pure found
  | none => next

def workflowTypeOf (hints : Option IsolationHints) : IsolationWorkflowType :=
  (hints.bind (·.workflowType)).getD .thread

def workflowIdOf (hints : Option IsolationHints) : List Char :=
  (hints.bind (·.workflowId)).getD []

/-- The stages after the first two. Without hints there are no linked issues and no
branch to look for. -/
def resolveFor (outside : ResolveOutside) (request : ResolveRequest) (codebase : CodebaseSummary)
    (canonicalRepoPath : Path) : Resolving Location IsolationResolution :=
  let workflowType := workflowTypeOf request.hints
  let workflowId := workflowIdOf request.hints
  otherwise
    (if workflowId = [] then pure none
      else findReusableEnvironment resolver outside.workflow codebase canonicalRepoPath workflowType
        workflowId) <|
  otherwise
    (findLinkedIssueEnvironment resolver outside.linked codebase canonicalRepoPath
      (request.hints.getD {})) <|
  otherwise
    (recording (fun adopted => adopted.bind recordOf)
      (tryBranchAdoption resolver outside.adopting codebase canonicalRepoPath
        (request.hints.getD {}) workflowType workflowId)) <| do
  cleanupRows resolver outside
  recording recordOf
    (createNewEnvironment resolver outside.creating codebase canonicalRepoPath workflowType
      workflowId request.hints request.platformType)

def resolve (outside : ResolveOutside) (request : ResolveRequest) :
    Resolving Location IsolationResolution :=
  match request.existingEnvId with
  | some envId =>
      otherwise (checkExisting resolver outside.existing envId) (pure (.staleCleaned envId))
  | none =>
      match request.codebase with
      | none => pure (.none "/workspace".toList)
      | some codebase =>
          canonicalPathOr resolver outside.canonical codebase
            (resolveFor resolver outside request codebase)

end

end IsolationResolver

end HarnessAgent
