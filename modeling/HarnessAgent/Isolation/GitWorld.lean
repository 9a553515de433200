import HarnessAgent.Foundation.StatefulRun
import HarnessAgent.Isolation.WorktreePath

/-! # Git and the file system

The directories and repositories that the isolation code works on, and the git
commands that it runs, as git documents them: a command that is refused says why and
leaves everything as it was, apart from a branch that it has made already.
-/

namespace HarnessAgent

open LexicalPath

structure FileTree (Location : Type) where
  locate : Path → Location
  /-- The path without links. -/
  spell : Location → Path
  locate_spell : ∀ location, locate (spell location) = location
  /-- Whether a location is another one or lies below it. -/
  within : Location → Location → Bool
  within_self : ∀ location, within location location = true

/-- The `.git` entry of a directory. -/
inductive GitEntry where
  /-- A directory: the main checkout of a repository. -/
  | checkout
  /-- A file with this content. -/
  | pointer (content : List Char)
  deriving DecidableEq, Repr

structure Directory (Location : Type) where
  entry : Option GitEntry := none
  /-- The repository that git finds from here. -/
  repository : Option Location := none
  /-- Uncommitted changes or untracked files. -/
  modified : Bool := false
  /-- There is a `.gitmodules`. -/
  hasGitmodules : Bool := false
  submodulesInitialized : Bool := false
  /-- Every configured file was copied, of those that are there. -/
  filesCopied : Bool := false
  deriving DecidableEq, Repr

/-- A worktree that a repository has registered; without a branch its head is
detached. -/
structure Worktree (Location : Type) where
  location : Location
  branch : Option BranchName
  locked : Bool := false
  deriving DecidableEq, Repr

structure Repository (Location : Type) where
  /-- The branch of the main checkout. -/
  head : Option BranchName
  branches : List BranchName
  worktrees : List (Worktree Location) := []
  /-- Branches of `origin`. -/
  remoteBranches : List BranchName := []
  /-- Other refs of `origin`. -/
  remoteRefs : List (List Char) := []
  /-- Branches of `origin` that have been fetched. -/
  tracking : List BranchName := []
  /-- Other names of commits: hashes and tags. -/
  commits : List (List Char) := []
  /-- Whether a revision has a `.gitmodules`. -/
  modulesAt : List Char → Bool := fun _ => false

structure World (Location : Type) where
  directories : Location → Option (Directory Location)
  repositories : Location → Option (Repository Location)

variable {Location : Type} [DecidableEq Location]

namespace World

def setDirectory (world : World Location) (location : Location)
    (directory : Directory Location) : World Location :=
  { world with
    directories := fun other =>
      if other = location then some directory else world.directories other }

def setRepository (world : World Location) (location : Location)
    (repository : Repository Location) : World Location :=
  { world with
    repositories := fun other =>
      if other = location then some repository else world.repositories other }

/-- The directory and all that is below it are gone. -/
def removeTree (tree : FileTree Location) (location : Location) (world : World Location) :
    World Location :=
  { world with
    directories := fun other =>
      if tree.within other location then none else world.directories other }

def makeParents (tree : FileTree Location) (location : Location) (world : World Location) :
    World Location :=
  { world with
    directories := fun other =>
      match world.directories other with
      | some directory => some directory
      | none => if tree.within location other then some {} else none }

def hasEntry (world : World Location) (location : Location) : Bool :=
  (world.directories location).any (·.entry.isSome)

end World

namespace Repository

def holder (repository : Repository Location) (location : Location) (branch : BranchName) :
    Option Location :=
  if repository.head = some branch then some location
  else (repository.worktrees.find? (·.branch = some branch)).map (·.location)

def namesCommit (repository : Repository Location) (revision : List Char) : Bool :=
  repository.commits.contains revision ||
    repository.tracking.any fun branch => revision == "origin/".toList ++ branch

def resolves (repository : Repository Location) (revision : List Char) : Bool :=
  repository.branches.contains revision || repository.namesCommit revision

def addBranch (repository : Repository Location) (branch : BranchName) : Repository Location :=
  if branch ∈ repository.branches then repository
  else { repository with branches := repository.branches ++ [branch] }

end Repository

/-- A command that fails ends with an exit code and the error text. -/
abbrev GitCommand (Location : Type) :=
  World Location → Outcome (Int × List Char) (World Location) Unit

namespace Git

/-- Commands run in the repository that git finds from the directory given to `-C`. -/
def inRepository (tree : FileTree Location) (path : Path)
    (command : Location → Repository Location → GitCommand Location) : GitCommand Location :=
  fun world =>
    match world.directories (tree.locate path) with
    | none =>
        .error (128, "fatal: cannot change to '".toList ++ path ++
          "': No such file or directory".toList) world
    | some directory =>
        match directory.repository with
        | none =>
            .error (128,
              "fatal: not a git repository (or any of the parent directories): .git".toList) world
        | some location =>
            match world.repositories location with
            | none =>
                .error (128,
                  "fatal: not a git repository (or any of the parent directories): .git".toList)
                  world
            | some repository => command location repository world

def branchExists (branch : BranchName) : List Char :=
  "fatal: a branch named '".toList ++ branch ++ "' already exists".toList

def invalidReference (revision : List Char) : List Char :=
  "fatal: invalid reference: ".toList ++ revision

/-- The administrative directory of a worktree is named after the last part of its
path. -/
def pointerTo (tree : FileTree Location) (repository : Location) (path : Path) : List Char :=
  "gitdir: ".toList ++ tree.spell repository ++ "/.git/worktrees/".toList ++
    (segments path).getLast?.getD [] ++ "\n".toList

def placeWorktree (tree : FileTree Location) (path : Path) (location : Location)
    (repository : Repository Location) (branch : Option BranchName) (revision : List Char)
    (world : World Location) : World Location :=
  ((world.makeParents tree (tree.locate path)).setDirectory (tree.locate path)
    { entry := some (.pointer (pointerTo tree location path))
      repository := some location
      hasGitmodules := repository.modulesAt revision }).setRepository location
    { repository with
      worktrees := repository.worktrees ++ [{ location := tree.locate path, branch }] }

/-- The second half of `git worktree add`: the place and the branch must be free. -/
def addWorktree (tree : FileTree Location) (path : Path) (location : Location)
    (repository : Repository Location) (branch : Option BranchName) (revision : List Char) :
    GitCommand Location :=
  fun world =>
    if (world.directories (tree.locate path)).isSome then
      .error (128, "fatal: '".toList ++ path ++ "' already exists".toList) world
    else if repository.worktrees.any (·.location = tree.locate path) then
      .error (128, "fatal: '".toList ++ path ++
        "' is a missing but already registered worktree;\nuse 'add -f' to override, or 'prune' or 'remove' to clear".toList)
        world
    else
      match branch.bind (repository.holder location) with
      | some holder =>
          .error (128, "fatal: '".toList ++ branch.getD [] ++ "' is already used by worktree at '".toList ++
            tree.spell holder ++ "'".toList) world
      | none => .ok () (placeWorktree tree path location repository branch revision world)

/-- `git worktree add PATH -b BRANCH START`: the branch is made first. -/
def worktreeAddNew (tree : FileTree Location) (repoPath path : Path) (branch : BranchName)
    (start : List Char) : GitCommand Location :=
  inRepository tree repoPath fun location repository world =>
    if branch ∈ repository.branches then .error (255, branchExists branch) world
    else if !repository.resolves start then .error (255, invalidReference start) world
    else
      let repository := repository.addBranch branch
      addWorktree tree path location repository (some branch) start
        (world.setRepository location repository)

/-- `git worktree add PATH REVISION`: a branch is checked out as such, any other
commit is detached, and a branch of `origin` alone gets a local one. -/
def worktreeAdd (tree : FileTree Location) (repoPath path : Path) (revision : List Char) :
    GitCommand Location :=
  inRepository tree repoPath fun location repository world =>
    if revision ∈ repository.branches then
      addWorktree tree path location repository (some revision) revision world
    else if repository.namesCommit revision then
      addWorktree tree path location repository none revision world
    else if revision ∈ repository.tracking then
      let repository := repository.addBranch revision
      addWorktree tree path location repository (some revision) revision
        (world.setRepository location repository)
    else .error (128, invalidReference revision) world

def worktreeRemove (tree : FileTree Location) (repoPath path : Path) (force : Bool) :
    GitCommand Location :=
  inRepository tree repoPath fun location repository world =>
    let target := tree.locate path
    if target = location then
      .error (128, "fatal: '".toList ++ path ++ "' is a main working tree".toList) world
    else
      match repository.worktrees.find? (·.location = target) with
      | none => .error (128, "fatal: '".toList ++ path ++ "' is not a working tree".toList) world
      | some worktree =>
          let removed := (world.removeTree tree target).setRepository location
            { repository with
              worktrees := repository.worktrees.filter (·.location ≠ target) }
          if worktree.locked then
            .error (128,
              "fatal: cannot remove a locked working tree;\nuse 'remove -f -f' to override or unlock first".toList)
              world
          else
            match world.directories target with
            | none => .ok () removed
            | some directory =>
                if directory.entry.isNone then
                  .error (128, "fatal: validation failed, cannot remove working tree: '".toList ++ path ++
                    "/.git' does not exist".toList) world
                else if directory.repository ≠ some location then
                  .error (128, "fatal: validation failed, cannot remove working tree: '".toList ++ path ++
                    "/.git' does not point back to it".toList) world
                else if !force && directory.hasGitmodules then
                  .error (128,
                    "fatal: working trees containing submodules cannot be moved or removed".toList) world
                else if !force && directory.modified then
                  .error (128, "fatal: '".toList ++ path ++
                    "' contains modified or untracked files, use --force to delete it".toList) world
                else .ok () removed

def worktreePrune (tree : FileTree Location) (repoPath : Path) : GitCommand Location :=
  inRepository tree repoPath fun location repository world =>
    .ok () (world.setRepository location
      { repository with
        worktrees := repository.worktrees.filter fun worktree =>
          worktree.locked || world.hasEntry worktree.location })

def branchDelete (tree : FileTree Location) (repoPath : Path) (branch : BranchName) :
    GitCommand Location :=
  inRepository tree repoPath fun location repository world =>
    match repository.holder location branch with
    | some holder =>
        .error (1, "error: Cannot delete branch '".toList ++ branch ++ "' checked out at '".toList ++
          tree.spell holder ++ "'".toList) world
    | none =>
        if branch ∈ repository.branches then
          .ok () (world.setRepository location
            { repository with branches := repository.branches.filter (· ≠ branch) })
        else .error (1, "error: branch '".toList ++ branch ++ "' not found.".toList) world

def branchForce (tree : FileTree Location) (repoPath : Path) (branch : BranchName)
    (start : List Char) : GitCommand Location :=
  inRepository tree repoPath fun location repository world =>
    match repository.holder location branch with
    | some holder =>
        .error (128, "fatal: cannot force update the branch '".toList ++ branch ++
          "' used by worktree at '".toList ++ tree.spell holder ++ "'".toList) world
    | none =>
        if !repository.resolves start then .error (128, invalidReference start) world
        else .ok () (world.setRepository location (repository.addBranch branch))

def fetch (tree : FileTree Location) (repoPath : Path) (name : List Char) : GitCommand Location :=
  inRepository tree repoPath fun location repository world =>
    if name ∈ repository.remoteBranches then
      .ok () (world.setRepository location
        { repository with tracking := repository.tracking ++ [name] })
    else if name ∈ repository.remoteRefs then .ok () world
    else .error (128, "fatal: couldn't find remote ref ".toList ++ name) world

def fetchInto (tree : FileTree Location) (repoPath : Path) (name : List Char)
    (branch : BranchName) : GitCommand Location :=
  inRepository tree repoPath fun location repository world =>
    match repository.holder location branch with
    | some holder =>
        .error (128, "fatal: refusing to fetch into branch 'refs/heads/".toList ++ branch ++
          "' checked out at '".toList ++ tree.spell holder ++ "'".toList) world
    | none =>
        if name ∈ repository.remoteBranches ∨ name ∈ repository.remoteRefs then
          .ok () (world.setRepository location (repository.addBranch branch))
        else .error (128, "fatal: couldn't find remote ref ".toList ++ name) world

def checkoutNew (tree : FileTree Location) (path : Path) (branch : BranchName)
    (start : List Char) : GitCommand Location :=
  inRepository tree path fun location repository world =>
    if branch ∈ repository.branches then .error (128, branchExists branch) world
    else if !repository.resolves start then .error (128, invalidReference start) world
    else
      let moved := repository.addBranch branch
      match (world.directories (tree.locate path)).bind (·.entry) with
      | some (.pointer _) =>
          .ok () (world.setRepository location
            { moved with
              worktrees := repository.worktrees.map fun worktree =>
                if worktree.location = tree.locate path then { worktree with branch := some branch }
                else worktree })
      | _ => .ok () (world.setRepository location { moved with head := some branch })

def pushDelete (tree : FileTree Location) (repoPath : Path) (branch : BranchName) :
    GitCommand Location :=
  inRepository tree repoPath fun location repository world =>
    if branch ∈ repository.remoteBranches then
      .ok () (world.setRepository location
        { repository with
          remoteBranches := repository.remoteBranches.filter (· ≠ branch)
          tracking := repository.tracking.filter (· ≠ branch) })
    else
      .error (1, "error: unable to delete '".toList ++ branch ++
        "': remote ref does not exist".toList) world

def submoduleUpdate (tree : FileTree Location) (path : Path) : GitCommand Location :=
  inRepository tree path fun _ _ world =>
    match world.directories (tree.locate path) with
    | some directory =>
        .ok () (world.setDirectory (tree.locate path)
          { directory with submodulesInitialized := true })
    | none => .ok () world

end Git

end HarnessAgent
