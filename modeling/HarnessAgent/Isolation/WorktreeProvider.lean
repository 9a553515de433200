import HarnessAgent.Foundation.TextScan
import HarnessAgent.Isolation.CopyGuard
import HarnessAgent.Isolation.GitWorld

/-! # The worktree provider

Creating and destroying the worktree of an isolation request. The code is a sequence
of git commands and file accesses; each of them may also fail for a reason that lies
outside of the model.
-/

namespace HarnessAgent

open LexicalPath StatefulRun

/-! ## Failures from outside -/

/-- A git command that fails for another reason than those that git checks; except
when it does not start, it may have done its work. -/
inductive Fault where
  | spawn (error : List Char)
  | wait (error : List Char) (acted : Bool)
  | timeout (acted : Bool)
  | exit (code : Int) (stderr : List Char) (acted : Bool)
  deriving DecidableEq, Repr

def Fault.acted : Fault → Bool
  | .spawn _ => false
  | .wait _ acted | .timeout acted | .exit _ _ acted => acted

structure IoError where
  text : List Char
  kind : List Char := []
  acted : Bool := false
  deriving DecidableEq, Repr

/-- The git commands of the code, each of which runs at most once in a call. -/
inductive GitSite where
  | listWorktrees | fetch | add | resetBranch | addBranch | checkout | deleteStale | retry
  | removeLeftover | updateSubmodules | remove | prune | listRemaining | deleteBranch
  | deleteRemote
  deriving DecidableEq, Repr

inductive FileSite where
  | findWorktree | ownership | makeBase | orphan | orphanEntry | removeOrphan | leftover
  | gitmodules | path | pointer | remaining | removeRemaining
  deriving DecidableEq, Repr

structure Outside where
  git : GitSite → Option Fault := fun _ => none
  file : FileSite → Option IoError := fun _ => none
  /-- The base branch that syncing with `origin` ends with. -/
  sync : Except IsolationError BranchName
  /-- How copying into the worktree goes. -/
  disk : WorktreeCopy.Disk := .bare

/-! ## Running git -/

def commandFailed (arguments : List (List Char)) (code : Int) (stderr : List Char) : List Char :=
  let command := "Command failed: git ".toList ++ List.intercalate " ".toList arguments
  let exited := "\nProcess exited with code ".toList ++ (toString code).toList
  if (Text.trim stderr).isEmpty then command ++ exited
  else command ++ "\n".toList ++ Text.trim stderr ++ exited

def Fault.message (timeoutMs : Nat) (arguments : List (List Char)) : Fault → List Char
  | .spawn error => "Failed to spawn 'git': ".toList ++ error
  | .wait error _ => "Process wait error: ".toList ++ error
  | .timeout _ => "Command 'git' timed out after ".toList ++ (toString timeoutMs).toList ++ "ms".toList
  | .exit code stderr _ => commandFailed arguments code stderr

def processError (message : List Char) : List Char :=
  "git process error: ".toList ++ message

section

variable {Location : Type}

/-- A git command, which fails with the displayed error. -/
abbrev GitRun (Location : Type) := StatefulRun (List Char) (World Location) Unit

def execFileAsync (timeoutMs : Nat) (fault : Option Fault) (arguments : List (List Char))
    (command : GitCommand Location) : GitRun Location where
  run world :=
    match fault with
    | some fault =>
        .error (processError (fault.message timeoutMs arguments))
          (if fault.acted then (command world).final else world)
    | none =>
        match command world with
        | .ok () next => .ok () next
        | .error (code, stderr) next =>
            .error (processError (commandFailed arguments code stderr)) next

abbrev Run (Location : Type) (α : Type) := StatefulRun IsolationError (World Location) α

def orOther {α : Type} (first : StatefulRun (List Char) (World Location) α) : Run Location α :=
  first.mapError IsolationError.other

def IsolationError.text : IsolationError → List Char
  | .other message => message
  | .git message => "Git error: ".toList ++ message
  | .panicked message => message

def gitOperationTimeoutMs : Nat := 5 * 60 * 1000

end

variable {Location : Type} [DecidableEq Location]

/-! ## Reading worktrees -/

def listedName (branch : BranchName) : BranchName :=
  Text.replaceLoop "refs/heads/".toList [] 0 ("refs/heads/".toList ++ branch)

structure WorktreeInfo where
  path : Path
  branch : BranchName
  deriving DecidableEq, Repr

/-- The entries of `git worktree list` that have a branch, the main checkout first. -/
def Repository.listing (tree : FileTree Location) (location : Location)
    (repository : Repository Location) : List WorktreeInfo :=
  let checkouts := (location, repository.head) ::
    repository.worktrees.map fun worktree => (worktree.location, worktree.branch)
  (checkouts.filterMap fun checkout =>
    checkout.2.map fun branch => ⟨tree.spell checkout.1, listedName branch⟩).filter
    fun info => info.path ≠ [] ∧ info.branch ≠ []

def listWorktrees (tree : FileTree Location) (fault : Option Fault) (repoPath : Path)
    (world : World Location) : Except (List Char) (List WorktreeInfo) :=
  let arguments := ["-C".toList, repoPath, "worktree".toList, "list".toList, "--porcelain".toList]
  let answer : Except (List Char) (List WorktreeInfo) :=
    match fault with
    | some fault => .error (fault.message 10000 arguments)
    | none =>
        match Git.inRepository tree repoPath (fun _ _ world => .ok () world) world with
        | .error (code, stderr) _ => .error (commandFailed arguments code stderr)
        | .ok () _ =>
            .ok ((do
              let directory ← world.directories (tree.locate repoPath)
              let location ← directory.repository
              let repository ← world.repositories location
              some (repository.listing tree location)).getD [])
  match answer with
  | .ok worktrees => .ok worktrees
  | .error message =>
      if Text.occurs "No such file or directory".toList message then .ok []
      else if Text.occurs "not a git repository".toList message then .ok []
      else .error (processError ("Failed to list worktrees for ".toList ++ repoPath ++ ": ".toList ++
        message))

def dashed (branch : BranchName) : List Char :=
  branch.map fun character => if character = '/' then '-' else character

/-- The name itself first, then names that differ in slashes and dashes only. -/
def findByBranch (worktrees : List WorktreeInfo) (branchPattern : BranchName) : Option Path :=
  match worktrees.find? (·.branch = branchPattern) with
  | some info => some info.path
  | none =>
      (worktrees.find? fun info =>
        dashed info.branch = dashed branchPattern ∨ info.branch = dashed branchPattern).map
        (·.path)

def findWorktreeByBranch (tree : FileTree Location) (fault : Option Fault) (repoPath : Path)
    (branchPattern : BranchName) (world : World Location) : Except (List Char) (Option Path) :=
  (listWorktrees tree fault repoPath world).map (findByBranch · branchPattern)

/-- A failing access is taken for a missing worktree by all callers. -/
def worktreeExists (tree : FileTree Location) (error : Option IoError) (path : Path)
    (world : World Location) : Bool :=
  error.isNone && world.hasEntry (tree.locate path)

def extractRepoFromGitdir (content : List Char) : Option Path :=
  let line := content.takeWhile (· ≠ '\n')
  if "gitdir: ".toList.isPrefixOf line then
    let rest := line.drop "gitdir: ".length
    let marker := "/.git/worktrees/".toList
    (rest.inits.filter fun repo => marker.isPrefixOf (rest.drop repo.length)).getLast?
  else none

def resolvedPath (tree : FileTree Location) (world : World Location) (path : Path) :
    Location ⊕ List Component :=
  if (world.directories (tree.locate path)).isSome then .inl (tree.locate path)
  else .inr (components path)

def ownershipMismatch (message : List Char) : List Char :=
  "worktree ownership mismatch: ".toList ++ message

def verifyWorktreeOwnership (tree : FileTree Location) (error : Option IoError)
    (worktreePath expectedRepo : Path) (world : World Location) : Except (List Char) Unit :=
  match error with
  | some error =>
      .error (ownershipMismatch ("Cannot verify worktree ownership at ".toList ++ worktreePath ++
        ": ".toList ++ error.text))
  | none =>
      match (world.directories (tree.locate worktreePath)).bind (·.entry) with
      | none =>
          .error (ownershipMismatch ("Cannot verify worktree ownership at ".toList ++ worktreePath ++
            ": No such file or directory (os error 2)".toList))
      | some .checkout =>
          .error (ownershipMismatch ("Cannot adopt ".toList ++ worktreePath ++
            ": path contains a full git checkout, not a worktree.".toList))
      | some (.pointer content) =>
          match extractRepoFromGitdir content with
          | none =>
              .error (ownershipMismatch ("Cannot adopt ".toList ++ worktreePath ++
                ": .git pointer is not a git-worktree reference.".toList))
          | some existingRepo =>
              if resolvedPath tree world existingRepo ≠ resolvedPath tree world expectedRepo then
                .error (ownershipMismatch ("Worktree at ".toList ++ worktreePath ++
                  " belongs to a different clone (".toList ++ existingRepo ++
                  "). Remove it from that clone or use a different codebase registration.".toList))
              else .ok ()

/-! ## File accesses -/

def directoryExists (tree : FileTree Location) (error : Option IoError) (path : Path) :
    Run Location Bool where
  run world :=
    match error with
    | some error =>
        .error (.other ("Failed to check directory at ".toList ++ path ++ ": ".toList ++ error.text ++
          " (code: ".toList ++ error.kind ++ ")".toList)) world
    | none => .ok (world.directories (tree.locate path)).isSome world

def removeDirAll (tree : FileTree Location) (error : Option IoError) (path : Path) :
    GitRun Location where
  run world :=
    match error with
    | some error =>
        .error error.text
          (if error.acted then world.removeTree tree (tree.locate path) else world)
    | none =>
        if (world.directories (tree.locate path)).isSome then
          .ok () (world.removeTree tree (tree.locate path))
        else .error "No such file or directory (os error 2)".toList world

def mkdirAsync (tree : FileTree Location) (error : Option IoError) (path : Path) :
    Run Location Unit where
  run world :=
    match error with
    | some error => .error (.git ("io error: ".toList ++ error.text)) world
    | none => .ok () (world.makeParents tree (tree.locate path))

/-! ## Creating -/

structure WorktreeProvider (Location : Type) where
  tree : FileTree Location
  around : WorktreeProvider.Surroundings
  shortHash : List Char → List Char
  loadConfig : Path → Option WorktreeCreateConfig

inductive AdoptedFrom where
  | path
  | branch
  deriving DecidableEq, Repr

inductive WorktreeMetadata where
  | adopted (adoptedFrom : Option AdoptedFrom)
  | created
  deriving DecidableEq, Repr

structure WorktreeEnvironment where
  workingPath : Path
  branchName : BranchName
  metadata : WorktreeMetadata
  deriving DecidableEq, Repr

namespace WorktreeProvider

def alreadyExists (message : List Char) : Bool :=
  Text.occurs "already exists".toList message

section

variable (provider : WorktreeProvider Location) (outside : Outside)

def git (site : GitSite) (path : Path) (arguments : List (List Char))
    (command : GitCommand Location) : GitRun Location :=
  execFileAsync gitOperationTimeoutMs (outside.git site) ("-C".toList :: path :: arguments) command

def ownership (worktreePath repoPath : Path) : Run Location Unit where
  run world :=
    match verifyWorktreeOwnership provider.tree (outside.file .ownership) worktreePath repoPath
      world with
    | .ok () => .ok () world
    | .error message => .error (.other message) world

def toWorktreePath (path : Path) : Except IsolationError Path :=
  if path = [] then .error (.other "WorktreePath cannot be empty".toList) else .ok path

def toBranchName (name : BranchName) : Except IsolationError BranchName :=
  if name = [] then .error (.other "BranchName cannot be empty".toList) else .ok name

def findExistingByBranch : IsolationRequest → Run Location (Option WorktreeEnvironment)
  | .pr base _ prBranch _ _ => do
      let repoPath ← ofExcept (toRepoPath base.canonicalRepoPath)
      let prBranch ← ofExcept (toBranchName prBranch)
      let world ← read
      match findWorktreeByBranch provider.tree (outside.git .listWorktrees) repoPath prBranch
        world with
      | .error message => fail (.git message)
      | .ok none => pure none
      | .ok (some existing) => do
          ownership provider outside existing repoPath
          pure (some ⟨existing, prBranch, .adopted (some .branch)⟩)
  | _ => pure none

def findExisting (request : IsolationRequest) (branchName : BranchName) (worktreePath : Path) :
    Run Location (Option WorktreeEnvironment) := do
  let worktreePath ← ofExcept (toWorktreePath worktreePath)
  let world ← read
  if worktreeExists provider.tree (outside.file .findWorktree) worktreePath world then do
    let repoPath ← ofExcept (toRepoPath request.base.canonicalRepoPath)
    ownership provider outside worktreePath repoPath
    pure (some ⟨worktreePath, branchName, .adopted none⟩)
  else findExistingByBranch provider outside request

def cleanOrphanDirectoryIfExists (worktreePath : Path) : Run Location Unit := do
  let dirExists ← directoryExists provider.tree (outside.file .orphan) worktreePath
  let world ← read
  if !dirExists then pure ()
  else if worktreeExists provider.tree (outside.file .orphanEntry) worktreePath world then pure ()
  else
    StatefulRun.mapError
      (fun error => .other ("Failed to clean orphan directory at ".toList ++ worktreePath ++
        ": ".toList ++ error))
      (removeDirAll provider.tree (outside.file .removeOrphan) worktreePath)

def cleanOrphanWorktreeIfExists (repoPath worktreePath : Path) (world : World Location) :
    World Location :=
  if worktreePath = [] ∨ repoPath = [] then world
  else if worktreeExists provider.tree (outside.file .leftover) worktreePath world then
    ((execFileAsync 30000 (outside.git .removeLeftover)
      ["-C".toList, repoPath, "worktree".toList, "remove".toList, worktreePath]
      (Git.worktreeRemove provider.tree repoPath worktreePath false)).run world).final
  else world

def unlessExists (command : GitRun Location) (instead : Run Location Unit) :
    Run Location Unit where
  run world :=
    match command.run world with
    | .ok () next => .ok () next
    | .error message next =>
        if alreadyExists message then instead.run next else .error (.other message) next

def createBranchWithStaleRetry (repoPath : Path) (branchName : BranchName)
    (createCommand retry : GitRun Location) : Run Location Unit :=
  unlessExists createCommand do
    orOther (git outside .deleteStale repoPath ["branch".toList, "-D".toList, branchName]
      (Git.branchDelete provider.tree repoPath branchName))
    orOther retry

-- Setting the upstream afterwards changes no branch and its failure is only logged.
def createFromSameRepoPr (repoPath worktreePath : Path) (prBranch : BranchName) :
    Run Location Unit := do
  orOther (git outside .fetch repoPath ["fetch".toList, "origin".toList, prBranch]
    (Git.fetch provider.tree repoPath prBranch))
  unlessExists
    (git outside .add repoPath
      ["worktree".toList, "add".toList, worktreePath, "-b".toList, prBranch,
        "origin/".toList ++ prBranch]
      (Git.worktreeAddNew provider.tree repoPath worktreePath prBranch
        ("origin/".toList ++ prBranch)))
    (orOther (git outside .addBranch repoPath
      ["worktree".toList, "add".toList, worktreePath, prBranch]
      (Git.worktreeAdd provider.tree repoPath worktreePath prBranch)))

def createFromForkPr (repoPath worktreePath : Path) (prNumber : List Char)
    (prSha : Option (List Char)) : Run Location Unit :=
  let reviewBranch := "pr-".toList ++ prNumber ++ "-review".toList
  let pullHead := "pull/".toList ++ prNumber ++ "/head".toList
  match prSha with
  | some sha => do
      orOther (git outside .fetch repoPath ["fetch".toList, "origin".toList, pullHead]
        (Git.fetch provider.tree repoPath pullHead))
      orOther (git outside .add repoPath ["worktree".toList, "add".toList, worktreePath, sha]
        (Git.worktreeAdd provider.tree repoPath worktreePath sha))
      let checkout := fun site => git outside site worktreePath
        ["checkout".toList, "-b".toList, reviewBranch, sha]
        (Git.checkoutNew provider.tree worktreePath reviewBranch sha)
      createBranchWithStaleRetry provider outside repoPath reviewBranch (checkout .checkout)
        (checkout .retry)
  | none => do
      let fetch := fun site => git outside site repoPath
        ["fetch".toList, "origin".toList, pullHead ++ ":".toList ++ reviewBranch]
        (Git.fetchInto provider.tree repoPath pullHead reviewBranch)
      createBranchWithStaleRetry provider outside repoPath reviewBranch (fetch .fetch)
        (fetch .retry)
      orOther (git outside .add repoPath
        ["worktree".toList, "add".toList, worktreePath, reviewBranch]
        (Git.worktreeAdd provider.tree repoPath worktreePath reviewBranch))

def createFromPr (base : IsolationRequestBase) (identifier : List Char) (prBranch : BranchName)
    (prSha : Option (List Char)) (isForkPr : Bool) (worktreePath : Path) : Run Location Unit := do
  let repoPath := base.canonicalRepoPath
  cleanOrphanDirectoryIfExists provider outside worktreePath
  let result :=
    if !isForkPr then createFromSameRepoPr provider outside repoPath worktreePath prBranch
    else createFromForkPr provider outside repoPath worktreePath identifier prSha
  { run := fun world =>
      match result.run world with
      | .ok () next => .ok () next
      | .error error next =>
          .error (.other ("Failed to create worktree for PR #".toList ++ identifier ++ ": ".toList ++
            error.text)) (cleanOrphanWorktreeIfExists provider outside repoPath worktreePath next) }

def explicitStart : IsolationRequest → Option BranchName
  | .task _ _ fromBranch => fromBranch
  | _ => none

def createNewBranch (request : IsolationRequest) (repoPath worktreePath : Path)
    (branchName baseBranch : BranchName) : Run Location Unit := do
  cleanOrphanDirectoryIfExists provider outside worktreePath
  let startPoint := (explicitStart request).getD ("origin/".toList ++ baseBranch)
  unlessExists
    (git outside .add repoPath
      ["worktree".toList, "add".toList, worktreePath, "-b".toList, branchName, startPoint]
      (Git.worktreeAddNew provider.tree repoPath worktreePath branchName startPoint))
    (match explicitStart request with
    | some fromBranch =>
        fail (.other ("Branch \"".toList ++ branchName ++
          "\" already exists. Cannot create it from \"".toList ++ fromBranch ++
          "\". Either choose a different --branch name or omit --from.".toList))
    | none => do
        orOther (execFileAsync 10000 (outside.git .resetBranch)
          ["-C".toList, repoPath, "branch".toList, "-f".toList, branchName, startPoint]
          (Git.branchForce provider.tree repoPath branchName startPoint))
        orOther (git outside .addBranch repoPath
          ["worktree".toList, "add".toList, worktreePath, branchName]
          (Git.worktreeAdd provider.tree repoPath worktreePath branchName)))

def initSubmodules (worktreePath : Path) : Run Location Unit where
  run world :=
    match outside.file .gitmodules with
    | some error =>
        .error (.other ("Submodule initialization failed: cannot read .gitmodules (".toList ++
          error.kind ++ ")".toList)) world
    | none =>
        if (world.directories (provider.tree.locate worktreePath)).any (·.hasGitmodules) then
          (StatefulRun.mapError
            (fun error => .other ("Submodule initialization failed: ".toList ++ error))
            (execFileAsync 120000 (outside.git .updateSubmodules)
              ["-C".toList, worktreePath, "submodule".toList, "update".toList, "--init".toList,
                "--recursive".toList]
              (Git.submoduleUpdate provider.tree worktreePath))).run world
        else .ok () world

def copyFiles (config : Option WorktreeCreateConfig) (repoPath : Path) : List (List Char) :=
  let userCopyFiles :=
    match config.or (provider.loadConfig repoPath) with
    | some config => config.copyFiles.getD []
    | none => []
  (".archon".toList :: userCopyFiles).eraseDups

/-- Copying goes through all entries; what cannot be copied is only logged. -/
def copyConfiguredFiles (repoPath worktreePath : Path) (config : Option WorktreeCreateConfig)
    (world : World Location) : World Location :=
  let files := copyFiles provider config repoPath
  let copied := WorktreeCopy.copyWorktreeFiles outside.disk repoPath worktreePath files
  match world.directories (provider.tree.locate worktreePath) with
  | some directory =>
      world.setDirectory (provider.tree.locate worktreePath)
        { directory with
          filesCopied :=
            files.all (WorktreeCopy.isCopied outside.disk repoPath worktreePath copied) }
  | none => world

/-- Which commands make the worktree depends on the kind of the request. -/
def addWorktree (request : IsolationRequest) (worktreePath : Path)
    (branchName baseBranch : BranchName) : Run Location Unit :=
  match request with
  | .pr base identifier prBranch prSha isForkPr =>
      createFromPr provider outside base identifier prBranch prSha isForkPr worktreePath
  | _ =>
      createNewBranch provider outside request request.base.canonicalRepoPath worktreePath
        branchName baseBranch

def initSubmodulesUnlessOptedOut (worktreePath : Path) (config : Option WorktreeCreateConfig) :
    Run Location Unit :=
  if config.all (·.initSubmodules ≠ some false) then initSubmodules provider outside worktreePath
  else pure ()

-- The git identity that is stamped on the worktree in between is only configuration.
def createWorktree (request : IsolationRequest) (worktreePath : Path) (branchName : BranchName)
    (config : Option WorktreeCreateConfig) : Run Location Unit := do
  let baseBranch ← ofExcept outside.sync
  let baseDir ← ofExcept (baseDirectory provider.around request config)
  mkdirAsync provider.tree (outside.file .makeBase) baseDir
  addWorktree provider outside request worktreePath branchName baseBranch
  initSubmodulesUnlessOptedOut provider outside worktreePath config
  StatefulRun.modify
    (copyConfiguredFiles provider outside request.base.canonicalRepoPath worktreePath config)

def create (request : IsolationRequest) : Run Location WorktreeEnvironment := do
  let config := provider.loadConfig request.base.canonicalRepoPath
  let branchName := generateBranchName provider.shortHash request
  let worktreePath ← ofExcept (getWorktreePath provider.around request branchName config)
  match ← findExisting provider outside request branchName worktreePath with
  | some existing => pure existing
  | none => do
      createWorktree provider outside request worktreePath branchName config
      pure ⟨worktreePath, branchName, .created⟩

end

end WorktreeProvider

/-! ## Destroying -/

structure DestroyOptions where
  force : Option Bool := none
  branchName : Option BranchName := none
  canonicalRepoPath : Option Path := none
  deleteRemoteBranch : Option Bool := none
  deriving DecidableEq, Repr

structure DestroyResult where
  worktreeRemoved : Bool := false
  branchDeleted : Option Bool := none
  remoteBranchDeleted : Option Bool := none
  directoryClean : Bool := false
  warnings : List (List Char) := []
  deriving DecidableEq, Repr

namespace WorktreeProvider

def isWorktreeMissingError (message : List Char) : Bool :=
  let message := Text.lowercase message
  Text.occurs "no such file or directory".toList message ||
    Text.occurs "does not exist".toList message ||
    Text.occurs "is not a working tree".toList message

section

variable (provider : WorktreeProvider Location) (outside : Outside)

def getCanonicalRepoPath (path : Path) (world : World Location) : Except IsolationError Path :=
  match outside.file .pointer with
  | some error =>
      .error (.other (processError ("Cannot determine if ".toList ++ path ++ " is a worktree: ".toList ++
        error.text)))
  | none =>
      match (world.directories (provider.tree.locate path)).bind (·.entry) with
      | some (.pointer content) =>
          if "gitdir:".toList.isPrefixOf content then
            match extractRepoFromGitdir content with
            | some repoPath => toRepoPath repoPath
            | none =>
                match Text.takeBytes (min (Text.byteLength content) 80) content with
                | some shown =>
                    .error (.other (processError
                      ("Cannot determine canonical repo path from worktree at ".toList ++ path ++
                        ". Unexpected .git file format: ".toList ++ shown)))
                | none => .error (.panicked "byte index 80 is not a char boundary".toList)
          else toRepoPath path
      | _ => toRepoPath path

def gitWorktreeRemove (repoPath path : Path) (force : Option Bool) : GitRun Location :=
  git outside .remove repoPath
    (["worktree".toList, "remove".toList] ++
      (if force = some true then ["--force".toList] else []) ++ [path])
    (Git.worktreeRemove provider.tree repoPath path (force = some true))

def removeRegistered (repoPath path : Path) (force : Option Bool) : Run Location Unit where
  run world :=
    match (gitWorktreeRemove provider outside repoPath path force).run world with
    | .ok () next => .ok () next
    | .error message next =>
        if isWorktreeMissingError message then .ok () next else .error (.other message) next

def removeRemaining (path : Path) (result : DestroyResult) : Run Location DestroyResult where
  run world :=
    match (removeDirAll provider.tree (outside.file .removeRemaining) path).run world with
    | .ok () next => .ok { result with directoryClean := true } next
    | .error error next =>
        .ok { result with
          warnings := result.warnings ++ ["Failed to clean remaining directory at ".toList ++ path ++
            ": ".toList ++ error] } next

def removeWorktree (repoPath path : Path) (force : Option Bool) (result : DestroyResult) :
    Run Location DestroyResult := do
  removeRegistered provider outside repoPath path force
  let result := { result with worktreeRemoved := true }
  let dirExists ← directoryExists provider.tree (outside.file .remaining) path
  if dirExists then removeRemaining provider outside path result
  else pure { result with directoryClean := true }

def isWorktreeRegistered (repoPath path : Path) (world : World Location) : Bool :=
  match toRepoPath repoPath with
  | .error _ => false
  | .ok repoPath =>
      match listWorktrees provider.tree (outside.git .listRemaining) repoPath world with
      | .error _ => false
      | .ok worktrees =>
          worktrees.any fun info =>
            (world.directories (provider.tree.locate info.path)).isSome &&
              resolvedPath provider.tree world info.path = resolvedPath provider.tree world path

def deleteBranchTracked (repoPath : Path) (branchName : BranchName) (result : DestroyResult) :
    Run Location DestroyResult where
  run world :=
    match (git outside .deleteBranch repoPath ["branch".toList, "-D".toList, branchName]
      (Git.branchDelete provider.tree repoPath branchName)).run world with
    | .ok () next => .ok { result with branchDeleted := some true } next
    | .error message next =>
        if Text.occurs "not found".toList message || Text.occurs "did not match any".toList message then
          .ok { result with branchDeleted := some true } next
        else if Text.occurs "checked out at".toList message then
          .ok { result with
            branchDeleted := some false
            warnings := result.warnings ++ ["Cannot delete branch '".toList ++ branchName ++
              "': branch is checked out elsewhere".toList] } next
        else
          .ok { result with
            branchDeleted := some false
            warnings := result.warnings ++ ["Unexpected error deleting branch '".toList ++
              branchName ++ "': ".toList ++ message] } next

def deleteRemoteBranchTracked (repoPath : Path) (branchName : BranchName)
    (result : DestroyResult) : Run Location DestroyResult where
  run world :=
    match (git outside .deleteRemote repoPath
      ["push".toList, "origin".toList, "--delete".toList, branchName]
      (Git.pushDelete provider.tree repoPath branchName)).run world with
    | .ok () next => .ok { result with remoteBranchDeleted := some true } next
    | .error message next =>
        if Text.occurs "remote ref does not exist".toList message ||
            Text.occurs "couldn't find remote ref".toList message then
          .ok { result with remoteBranchDeleted := some true } next
        else
          .ok { result with
            remoteBranchDeleted := some false
            warnings := result.warnings ++ ["Failed to delete remote branch '".toList ++ branchName ++
              "': ".toList ++ message] } next

def deleteBranches (repoPath : Path) (options : DestroyOptions) (result : DestroyResult) :
    Run Location DestroyResult :=
  match options.branchName with
  | none => pure result
  | some branchName => do
      let result ← deleteBranchTracked provider outside repoPath branchName result
      if options.deleteRemoteBranch = some true then
        deleteRemoteBranchTracked provider outside repoPath branchName result
      else pure result

/-- What is done in the repository after the directory: stale references are pruned,
whatever comes of it, and a worktree that is still registered counts as not removed. -/
def pruneAndVerify (repoPath path : Path) (result : DestroyResult) : Run Location DestroyResult where
  run world :=
    let next := ((execFileAsync 15000 (outside.git .prune)
      ["-C".toList, repoPath, "worktree".toList, "prune".toList]
      (Git.worktreePrune provider.tree repoPath)).run world).final
    if result.worktreeRemoved && isWorktreeRegistered provider outside repoPath path next then
      .ok { result with
        worktreeRemoved := false
        warnings := result.warnings ++ ["Worktree at ".toList ++ path ++
          " was reported removed but is still registered in git".toList] } next
    else .ok result next

def destroyRepoPath (path : Path) (options : DestroyOptions) (pathExists : Bool) :
    Run Location (Option Path) :=
  match options.canonicalRepoPath with
  | some repoPath => pure (some repoPath)
  | none =>
      if pathExists then do
        let world ← read
        let repoPath ← ofExcept (getCanonicalRepoPath provider outside path world)
        pure (some repoPath)
      else pure none

def destroy (envId : Path) (options : DestroyOptions) : Run Location DestroyResult := do
  let pathExists ← directoryExists provider.tree (outside.file .path) envId
  let result : DestroyResult :=
    if pathExists then {} else { worktreeRemoved := true, directoryClean := true }
  match ← destroyRepoPath provider outside envId options pathExists with
  | none =>
      match options.branchName with
      | none => pure result
      | some branchName =>
          pure { result with
            warnings := result.warnings ++ ["Cannot delete branch '".toList ++ branchName ++
              "': worktree path gone and no canonicalRepoPath provided".toList] }
  | some repoPath => do
      let result ←
        if pathExists then removeWorktree provider outside repoPath envId options.force result
        else pure result
      let result ← pruneAndVerify provider outside repoPath envId result
      deleteBranches provider outside repoPath options result

end

end WorktreeProvider

end HarnessAgent
