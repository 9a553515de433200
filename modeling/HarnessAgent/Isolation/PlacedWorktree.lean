import HarnessAgent.Isolation.Creation
import HarnessAgent.Isolation.UnforcedDestroy

/-! # What adding a worktree leaves alone

Frames for the steps of creating a worktree: those that change no checkout, those that
change only branches of one repository, and the addition of a worktree itself.
-/

namespace HarnessAgent

open LexicalPath StatefulRun

section

variable {Location : Type}

namespace World

def entryAt (world : World Location) (location : Location) : Option GitEntry :=
  (world.directories location).bind (·.entry)

def ownerAt (world : World Location) (location : Location) : Option Location :=
  (world.directories location).bind (·.repository)

def branchesOf (world : World Location) (location : Location) : List BranchName :=
  ((world.repositories location).map (·.branches)).getD []

def worktreesOf (world : World Location) (location : Location) : List (Worktree Location) :=
  ((world.repositories location).map (·.worktrees)).getD []

def headOf (world : World Location) (location : Location) : Option BranchName :=
  (world.repositories location).bind (·.head)

def modifiedAt (world : World Location) (location : Location) : Bool :=
  (world.directories location).any (·.modified)

def modulesIn (world : World Location) (location : Location) : Bool :=
  (world.directories location).any (·.hasGitmodules)

def modulesOf (world : World Location) (location : Location) (revision : List Char) : Bool :=
  (world.repositories location).any (·.modulesAt revision)

theorem hasEntry_eq (world : World Location) (location : Location) :
    world.hasEntry location = (world.entryAt location).isSome := by
  rw [hasEntry, entryAt]
  cases world.directories location with
  | none => rfl
  | some directory => rfl

theorem repositoryAt_eq (tree : FileTree Location) (path : Path) (world : World Location) :
    world.repositoryAt tree path =
      (world.ownerAt (tree.locate path)).bind fun location =>
        (world.repositories location).map fun repository => (location, repository) := by
  rw [repositoryAt, ownerAt]
  cases world.directories (tree.locate path) with
  | none => rfl
  | some directory =>
      cases owner : directory.repository with
      | none => simp [owner]
      | some location =>
          cases known : world.repositories location with
          | none => simp [owner, known]
          | some repository => simp [owner, known]

theorem repositoryAt_eq_some_iff {tree : FileTree Location} {path : Path} {world : World Location}
    {location : Location} {repository : Repository Location} :
    world.repositoryAt tree path = some (location, repository) ↔
      world.ownerAt (tree.locate path) = some location ∧
        world.repositories location = some repository := by
  rw [repositoryAt_eq]
  cases world.ownerAt (tree.locate path) with
  | none => simp
  | some owner =>
      cases known : world.repositories owner with
      | none =>
          simp only [Option.bind_some, known, Option.map_none, Option.some.injEq]
          constructor
          · intro impossible
            cases impossible
          · intro both
            rcases both with ⟨rfl, other⟩
            rw [known] at other
            cases other
      | some repository =>
          simp only [Option.bind_some, known, Option.map_some, Option.some.injEq, Prod.mk.injEq]
          constructor
          · intro both
            rcases both with ⟨rfl, rfl⟩
            exact ⟨rfl, known⟩
          · intro both
            rcases both with ⟨rfl, other⟩
            rw [known] at other
            exact ⟨rfl, Option.some.inj other⟩

end World

/-! ## Steps that change no checkout -/

structure SameGit (before after : World Location) : Prop where
  repositories : after.repositories = before.repositories
  entries : ∀ location, after.entryAt location = before.entryAt location
  owners : ∀ location, after.ownerAt location = before.ownerAt location
  modified : ∀ location, after.modifiedAt location = before.modifiedAt location
  modules : ∀ location, after.modulesIn location = before.modulesIn location

instance : Std.Refl (@SameGit Location) where
  refl _ := ⟨rfl, fun _ => rfl, fun _ => rfl, fun _ => rfl, fun _ => rfl⟩

theorem SameGit.repositoryAt_eq (same : SameGit before after) (tree : FileTree Location)
    (path : Path) : after.repositoryAt tree path = before.repositoryAt tree path := by
  rw [World.repositoryAt_eq, World.repositoryAt_eq, same.owners, same.repositories]

theorem SameGit.hasEntry_eq (same : SameGit before after) (location : Location) :
    after.hasEntry location = before.hasEntry location := by
  rw [World.hasEntry_eq, World.hasEntry_eq, same.entries]

theorem sameGit_makeParents (tree : FileTree Location) (location : Location)
    (world : World Location) : SameGit world (world.makeParents tree location) := by
  -- A directory that is made is empty, which reads like one that is not there.
  have made : ∀ other, (world.makeParents tree location).directories other =
      world.directories other ∨
      (world.directories other = none ∧
        (world.makeParents tree location).directories other = some {}) := by
    intro other
    rw [World.makeParents]
    dsimp only
    cases world.directories other with
    | some directory => exact Or.inl rfl
    | none =>
        cases tree.within location other with
        | true => exact Or.inr ⟨rfl, rfl⟩
        | false => exact Or.inl rfl
  have same : ∀ {β : Type} (view : Option (Directory Location) → β), view (some {}) = view none →
      ∀ other, view ((world.makeParents tree location).directories other) =
        view (world.directories other) := by
    intro β view empty other
    rcases made other with unchanged | ⟨absent, created⟩
    · rw [unchanged]
    · rw [absent, created, empty]
  exact {
    repositories := rfl
    entries := fun other => same (fun directory => directory.bind (·.entry)) rfl other
    owners := fun other => same (fun directory => directory.bind (·.repository)) rfl other
    modified := fun other => same (fun directory => directory.any Directory.modified) rfl other
    modules := fun other => same (fun directory => directory.any Directory.hasGitmodules) rfl other }

/-! ## Steps that change only branches -/

/-- Something has changed in one repository only, and not its checkouts; except for
those that are spared, its branches are still there. -/
structure BranchesOnly (location : Location) (spared : List BranchName)
    (before after : World Location) : Prop where
  directories : after.directories = before.directories
  others : ∀ other, other ≠ location → after.repositories other = before.repositories other
  head : after.headOf location = before.headOf location
  worktrees : after.worktreesOf location = before.worktreesOf location
  modules : ∀ revision, after.modulesOf location revision = before.modulesOf location revision
  branches : ∀ branch ∈ before.branchesOf location, branch ∉ spared →
    branch ∈ after.branchesOf location

instance (location : Location) (spared : List BranchName) :
    Std.Refl (BranchesOnly location spared) where
  refl _ := ⟨rfl, fun _ _ => rfl, rfl, rfl, fun _ => rfl, fun _ member _ => member⟩

instance (location : Location) (spared : List BranchName) :
    IsTrans (World Location) (BranchesOnly location spared) where
  trans _ _ _ first second :=
    { directories := second.directories.trans first.directories
      others := fun other elsewhere =>
        (second.others other elsewhere).trans (first.others other elsewhere)
      head := second.head.trans first.head
      worktrees := second.worktrees.trans first.worktrees
      modules := fun revision => (second.modules revision).trans (first.modules revision)
      branches := fun branch member kept =>
        second.branches branch (first.branches branch member kept) kept }

theorem BranchesOnly.ownerAt_eq (only : BranchesOnly location spared before after)
    (other : Location) : after.ownerAt other = before.ownerAt other := by
  rw [World.ownerAt, World.ownerAt, only.directories]

theorem BranchesOnly.entryAt_eq (only : BranchesOnly location spared before after)
    (other : Location) : after.entryAt other = before.entryAt other := by
  rw [World.entryAt, World.entryAt, only.directories]

theorem mem_addBranch_self (repository : Repository Location) (branch : BranchName) :
    branch ∈ (repository.addBranch branch).branches := by
  rw [Repository.addBranch]
  split
  next member => exact member
  next => simp

@[simp] theorem addBranch_head (repository : Repository Location) (branch : BranchName) :
    (repository.addBranch branch).head = repository.head := by
  rw [Repository.addBranch]
  split
  · rfl
  · rfl

@[simp] theorem addBranch_worktrees (repository : Repository Location) (branch : BranchName) :
    (repository.addBranch branch).worktrees = repository.worktrees := by
  rw [Repository.addBranch]
  split
  · rfl
  · rfl

@[simp] theorem addBranch_modulesAt (repository : Repository Location) (branch : BranchName) :
    (repository.addBranch branch).modulesAt = repository.modulesAt := by
  rw [Repository.addBranch]
  split
  · rfl
  · rfl

theorem mem_addBranch_of_mem {repository : Repository Location} (branch : BranchName)
    (member : other ∈ repository.branches) : other ∈ (repository.addBranch branch).branches := by
  rw [Repository.addBranch]
  split
  · exact member
  · simp [member]

structure KeepsTo (tree : FileTree Location) (repoPath : Path) (spared : List BranchName)
    (before after : World Location) : Prop where
  directories : after.directories = before.directories
  only : ∀ location, before.ownerAt (tree.locate repoPath) = some location →
    BranchesOnly location spared before after

theorem KeepsTo.ownerAt_eq {tree : FileTree Location}
    (keeps : KeepsTo tree repoPath spared before after) (other : Location) :
    after.ownerAt other = before.ownerAt other := by
  rw [World.ownerAt, World.ownerAt, keeps.directories]

instance (tree : FileTree Location) (repoPath : Path) (spared : List BranchName) :
    Std.Refl (KeepsTo tree repoPath spared) where
  refl world := ⟨rfl, fun _ _ => Std.Refl.refl world⟩

instance (tree : FileTree Location) (repoPath : Path) (spared : List BranchName) :
    IsTrans (World Location) (KeepsTo tree repoPath spared) where
  trans _ _ _ first second :=
    { directories := second.directories.trans first.directories
      only := fun location owner =>
        IsTrans.trans _ _ _ (first.only location owner)
          (second.only location ((first.ownerAt_eq _).trans owner)) }

theorem Git.keepsTo_inRepository {tree : FileTree Location} {repoPath : Path}
    (each : ∀ location repository world, world.repositories location = some repository →
      BranchesOnly location spared world (command location repository world).final)
    (world : World Location) :
    KeepsTo tree repoPath spared world (Git.inRepository tree repoPath command world).final := by
  cases found : world.repositoryAt tree repoPath with
  | none =>
      rcases Git.inRepository_of_none command found with ⟨refusal, refused⟩
      rw [refused]
      exact Std.Refl.refl world
  | some pair =>
      rcases pair with ⟨location, repository⟩
      rw [Git.inRepository_of_some command found]
      rcases World.repositoryAt_eq_some_iff.mp found with ⟨owner, known⟩
      have only := each location repository world known
      refine ⟨only.directories, ?_⟩
      intro other otherOwner
      rw [owner] at otherOwner
      cases otherOwner
      exact only

/-! ## Making room -/

structure Cleared (tree : FileTree Location) (path : Path) (before after : World Location) :
    Prop where
  repositories : after.repositories = before.repositories
  entries : ∀ other, tree.within other (tree.locate path) = false →
    after.entryAt other = before.entryAt other
  owners : ∀ other location, after.ownerAt other = some location →
    before.ownerAt other = some location

theorem SameGit.cleared (same : SameGit before after) (tree : FileTree Location) (path : Path) :
    Cleared tree path before after where
  repositories := same.repositories
  entries := fun other _ => same.entries other
  owners := fun other location owner => by rw [← same.owners other, owner]

theorem cleared_removeTree (tree : FileTree Location) (path : Path) (world : World Location) :
    Cleared tree path world (world.removeTree tree (tree.locate path)) where
  repositories := rfl
  entries := fun other away => by simp [World.entryAt, World.removeTree, away]
  owners := fun other location owner => by
    rw [World.ownerAt, World.removeTree] at owner
    dsimp only at owner
    split at owner
    · cases owner
    · exact owner

instance (tree : FileTree Location) (path : Path) :
    Std.Refl (Cleared tree path) where
  refl world := SameGit.cleared (Std.Refl.refl world) tree path

instance (tree : FileTree Location) (path : Path) :
    IsTrans (World Location) (Cleared tree path) where
  trans _ _ _ first second :=
    { repositories := second.repositories.trans first.repositories
      entries := fun other away => (second.entries other away).trans (first.entries other away)
      owners := fun other location owner =>
        first.owners other location (second.owners other location owner) }

theorem Cleared.repositoryAt {tree : FileTree Location} (cleared : Cleared tree path before after)
    (found : after.repositoryAt tree repoPath = some (location, repository)) :
    before.repositoryAt tree repoPath = some (location, repository) := by
  rcases World.repositoryAt_eq_some_iff.mp found with ⟨owner, known⟩
  apply World.repositoryAt_eq_some_iff.mpr
  rw [← cleared.repositories]
  exact ⟨cleared.owners _ _ owner, known⟩

theorem cleared_cleanOrphanDirectory (provider : WorktreeProvider Location) (outside : Outside)
    (worktreePath : Path) :
    Leads (Cleared provider.tree worktreePath)
      (WorktreeProvider.cleanOrphanDirectoryIfExists provider outside worktreePath) := by
  intro world
  rcases WorktreeProvider.cleanOrphanDirectory_final provider outside worktreePath world with
    kept | ⟨-, removed⟩
  · rw [kept]
    exact Std.Refl.refl world
  · rw [removed]
    exact cleared_removeTree provider.tree worktreePath world

/-! ## The addition of a worktree -/

structure Placed (tree : FileTree Location) (repoPath path : Path) (location : Location)
    (branch : Option BranchName) (spared : List BranchName) (before after : World Location) :
    Prop where
  entries : ∀ other, tree.within other (tree.locate path) = false →
    after.entryAt other = before.entryAt other
  owner : after.ownerAt (tree.locate repoPath) = some location
  entry : ∃ content, after.entryAt (tree.locate path) = some (.pointer content)
  owned : after.ownerAt (tree.locate path) = some location
  pointer : after.entryAt (tree.locate path) = some (.pointer (Git.pointerTo tree location path))
  others : ∀ other, other ≠ location → after.repositories other = before.repositories other
  head : after.headOf location = before.headOf location
  worktrees : after.worktreesOf location =
    before.worktreesOf location ++ [{ location := tree.locate path, branch }]
  unregistered : ∀ worktree ∈ before.worktreesOf location,
    worktree.location ≠ tree.locate path
  unmodified : after.modifiedAt (tree.locate path) = false
  modules : after.modulesIn (tree.locate path) = true →
    ∃ revision, before.modulesOf location revision = true
  branches : ∀ branch ∈ before.branchesOf location, branch ∉ spared →
    branch ∈ after.branchesOf location

namespace Placed

variable {tree : FileTree Location} {repoPath path : Path} {location : Location}
  {branch : Option BranchName} {spared : List BranchName} {before between after : World Location}

theorem after_cleared (cleared : Cleared tree path before between)
    (placed : Placed tree repoPath path location branch spared between after) :
    Placed tree repoPath path location branch spared before after where
  entries := fun other away =>
    (placed.entries other away).trans (cleared.entries other away)
  __ := placed
  others := fun other elsewhere => by rw [placed.others other elsewhere, cleared.repositories]
  head := by rw [placed.head, World.headOf, cleared.repositories, World.headOf]
  worktrees := by
    rw [placed.worktrees, World.worktreesOf, cleared.repositories, World.worktreesOf]
  unregistered := by
    rw [World.worktreesOf, ← cleared.repositories]
    exact placed.unregistered
  modules := fun there => by
    rcases placed.modules there with ⟨revision, has⟩
    rw [World.modulesOf, cleared.repositories] at has
    exact ⟨revision, has⟩
  branches := by
    rw [World.branchesOf, ← cleared.repositories]
    exact placed.branches

theorem after_branchesOnly (only : BranchesOnly location spared before between)
    (placed : Placed tree repoPath path location branch spared between after) :
    Placed tree repoPath path location branch spared before after where
  entries := fun other elsewhere =>
    (placed.entries other elsewhere).trans (only.entryAt_eq other)
  __ := placed
  others := fun other elsewhere =>
    (placed.others other elsewhere).trans (only.others other elsewhere)
  head := placed.head.trans only.head
  worktrees := by rw [placed.worktrees, only.worktrees]
  unregistered := by
    rw [← only.worktrees]
    exact placed.unregistered
  modules := fun there => by
    rcases placed.modules there with ⟨revision, has⟩
    rw [only.modules] at has
    exact ⟨revision, has⟩
  branches := fun branch member kept =>
    placed.branches branch (only.branches branch member kept) kept

theorem then_branchesOnly (placed : Placed tree repoPath path location branch spared before between)
    (only : BranchesOnly location spared between after) :
    Placed tree repoPath path location branch spared before after where
  entries := fun other elsewhere =>
    (only.entryAt_eq other).trans (placed.entries other elsewhere)
  owner := (only.ownerAt_eq _).trans placed.owner
  entry := by
    rw [only.entryAt_eq]
    exact placed.entry
  owned := (only.ownerAt_eq _).trans placed.owned
  pointer := (only.entryAt_eq _).trans placed.pointer
  others := fun other elsewhere =>
    (only.others other elsewhere).trans (placed.others other elsewhere)
  head := only.head.trans placed.head
  worktrees := by rw [only.worktrees, placed.worktrees]
  unregistered := placed.unregistered
  unmodified := by
    rw [World.modifiedAt, only.directories]
    exact placed.unmodified
  modules := by
    rw [World.modulesIn, only.directories]
    exact placed.modules
  branches := fun branch member kept =>
    only.branches branch (placed.branches branch member kept) kept

theorem then_sameGit (placed : Placed tree repoPath path location branch spared before between)
    (same : SameGit between after) :
    Placed tree repoPath path location branch spared before after where
  entries := fun other elsewhere =>
    (same.entries other).trans (placed.entries other elsewhere)
  owner := (same.owners _).trans placed.owner
  entry := by
    rw [same.entries]
    exact placed.entry
  owned := (same.owners _).trans placed.owned
  pointer := (same.entries _).trans placed.pointer
  others := fun other elsewhere => by rw [same.repositories, placed.others other elsewhere]
  head := by rw [World.headOf, same.repositories, ← World.headOf, placed.head]
  worktrees := by rw [World.worktreesOf, same.repositories, ← World.worktreesOf, placed.worktrees]
  unregistered := placed.unregistered
  unmodified := (same.modified _).trans placed.unmodified
  modules := by
    rw [same.modules]
    exact placed.modules
  branches := fun branch member kept => by
    rw [World.branchesOf, same.repositories]
    exact placed.branches branch member kept

theorem mono (placed : Placed tree repoPath path location branch [] before after)
    (spared : List BranchName) :
    Placed tree repoPath path location branch spared before after :=
  { placed with branches := fun name member _ => placed.branches name member (by simp) }

theorem restore (placed : Placed tree repoPath path location branch [name] before after)
    (there : name ∈ after.branchesOf location) :
    Placed tree repoPath path location branch [] before after :=
  { placed with
    branches := fun other member _ => by
      by_cases same : other = name
      · rw [same]
        exact there
      · exact placed.branches other member (by simpa using same) }

theorem known (placed : Placed tree repoPath path location branch spared before after) :
    ∃ repository, after.repositories location = some repository := by
  have worktrees := placed.worktrees
  cases known : after.repositories location with
  | some repository => exact ⟨repository, rfl⟩
  | none =>
      rw [World.worktreesOf, known] at worktrees
      simp at worktrees

end Placed

end

variable {Location : Type} [DecidableEq Location]

/-! ## The commands -/

variable {world : World Location}

theorem sameGit_setDirectory (there : world.directories location = some directory)
    (entry : changed.entry = directory.entry) (owner : changed.repository = directory.repository)
    (modified : changed.modified = directory.modified)
    (modules : changed.hasGitmodules = directory.hasGitmodules) :
    SameGit world (world.setDirectory location changed) := by
  refine ⟨rfl, ?_, ?_, ?_, ?_⟩
  · intro other
    by_cases same : other = location
    · simp [World.entryAt, World.setDirectory, same, there, entry]
    · simp [World.entryAt, World.setDirectory, same]
  · intro other
    by_cases same : other = location
    · simp [World.ownerAt, World.setDirectory, same, there, owner]
    · simp [World.ownerAt, World.setDirectory, same]
  · intro other
    by_cases same : other = location
    · simp [World.modifiedAt, World.setDirectory, same, there, modified]
    · simp [World.modifiedAt, World.setDirectory, same]
  · intro other
    by_cases same : other = location
    · simp [World.modulesIn, World.setDirectory, same, there, modules]
    · simp [World.modulesIn, World.setDirectory, same]

theorem Git.sameGit_submoduleUpdate (tree : FileTree Location) (path : Path)
    (world : World Location) : SameGit world (Git.submoduleUpdate tree path world).final := by
  apply Git.inRepository_final
  intro location repository world found
  split
  next directory there => exact sameGit_setDirectory there rfl rfl rfl rfl
  next => exact Std.Refl.refl world

namespace WorktreeProvider

variable (provider : WorktreeProvider Location) (outside : Outside)

theorem sameGit_initSubmodules (worktreePath : Path) (config : Option WorktreeCreateConfig) :
    Leads SameGit (initSubmodulesUnlessOptedOut provider outside worktreePath config) := by
  rw [initSubmodulesUnlessOptedOut]
  split
  · intro world
    rw [initSubmodules]
    dsimp only
    split
    · exact Std.Refl.refl world
    · split
      · rw [final_mapError]
        exact leads_execFileAsync (Git.sameGit_submoduleUpdate provider.tree worktreePath) _ _ _
          world
      · exact Std.Refl.refl world
  · exact leads_pure _

theorem sameGit_copyConfiguredFiles (repoPath worktreePath : Path)
    (config : Option WorktreeCreateConfig) (world : World Location) :
    SameGit world
      (copyConfiguredFiles provider outside repoPath worktreePath config world) := by
  rw [copyConfiguredFiles]
  split
  next directory there => exact sameGit_setDirectory there rfl rfl rfl rfl
  next => exact Std.Refl.refl world

end WorktreeProvider

variable {repository : Repository Location}

theorem branchesOnly_setRepository (known : world.repositories location = some repository)
    (head : changed.head = repository.head) (worktrees : changed.worktrees = repository.worktrees)
    (modules : changed.modulesAt = repository.modulesAt)
    (branches : ∀ branch ∈ repository.branches, branch ∉ spared → branch ∈ changed.branches) :
    BranchesOnly location spared world (world.setRepository location changed) where
  directories := rfl
  others := fun other elsewhere => by simp [World.setRepository, elsewhere]
  head := by simp [World.headOf, World.setRepository, known, head]
  worktrees := by simp [World.worktreesOf, World.setRepository, known, worktrees]
  modules := fun revision => by simp [World.modulesOf, World.setRepository, known, modules]
  branches := fun branch member kept => by
    simp only [World.branchesOf, known, Option.map_some, Option.getD_some] at member
    simpa [World.branchesOf, World.setRepository] using branches branch member kept

theorem branchesOnly_addBranch {location : Location} {spared : List BranchName}
    (branch : BranchName) (known : world.repositories location = some repository) :
    BranchesOnly location spared world
      (world.setRepository location (repository.addBranch branch)) := by
  apply branchesOnly_setRepository known (addBranch_head _ _) (addBranch_worktrees _ _)
    (addBranch_modulesAt _ _)
  intro other member _
  exact mem_addBranch_of_mem branch member

namespace Git

theorem keepsTo_fetch (tree : FileTree Location) (repoPath : Path) (spared : List BranchName)
    (name : List Char) (world : World Location) :
    KeepsTo tree repoPath spared world (Git.fetch tree repoPath name world).final := by
  apply keepsTo_inRepository
  intro location repository world known
  split
  · exact branchesOnly_setRepository known rfl rfl rfl fun _ member _ => member
  · split
    · exact Std.Refl.refl world
    · exact Std.Refl.refl world

theorem keepsTo_fetchInto (tree : FileTree Location) (repoPath : Path) (spared : List BranchName)
    (name : List Char) (branch : BranchName) (world : World Location) :
    KeepsTo tree repoPath spared world
      (Git.fetchInto tree repoPath name branch world).final := by
  apply keepsTo_inRepository
  intro location repository world known
  split
  · exact Std.Refl.refl world
  · split
    · exact branchesOnly_addBranch branch known
    · exact Std.Refl.refl world

theorem keepsTo_branchForce (tree : FileTree Location) (repoPath : Path)
    (spared : List BranchName) (branch : BranchName) (start : List Char) (world : World Location) :
    KeepsTo tree repoPath spared world
      (Git.branchForce tree repoPath branch start world).final := by
  apply keepsTo_inRepository
  intro location repository world known
  split
  · exact Std.Refl.refl world
  · split
    · exact Std.Refl.refl world
    · exact branchesOnly_addBranch branch known

theorem keepsTo_branchDelete (tree : FileTree Location) (repoPath : Path) (branch : BranchName)
    (world : World Location) :
    KeepsTo tree repoPath [branch] world (Git.branchDelete tree repoPath branch world).final := by
  apply keepsTo_inRepository
  intro location repository world known
  split
  · exact Std.Refl.refl world
  · split
    · refine branchesOnly_setRepository known rfl rfl rfl ?_
      intro other member kept
      simpa [member] using kept
    · exact Std.Refl.refl world

variable {location : Location} {next : World Location} {path repoPath : Path}
  {tree : FileTree Location} {revision : List Char}

theorem placed_addWorktree {branch : Option BranchName}
    (owner : world.ownerAt (tree.locate repoPath) = some location)
    (known : world.repositories location = some repository)
    (ran : Git.addWorktree tree path location repository branch revision world = .ok () next) :
    Placed tree repoPath path location branch [] world next := by
  rcases Git.addWorktree_eq_ok ran with ⟨can, rfl⟩
  have elsewhere : tree.locate repoPath ≠ tree.locate path := by
    intro same
    rw [same, World.ownerAt, can.absent] at owner
    cases owner
  have parents := sameGit_makeParents tree (tree.locate path) world
  exact {
    entries := fun other away => by
      have different : other ≠ tree.locate path := by
        intro same
        rw [same, tree.within_self] at away
        cases away
      rw [← parents.entries other]
      simp [Git.placeWorktree, World.entryAt, World.setRepository, World.setDirectory, different]
    owner := by
      rw [← owner, ← parents.owners]
      simp [Git.placeWorktree, World.ownerAt, World.setRepository, World.setDirectory, elsewhere]
    entry := ⟨pointerTo tree location path, by
      rw [World.entryAt, Git.placeWorktree_self]
      rfl⟩
    owned := by
      rw [World.ownerAt, Git.placeWorktree_self]
      rfl
    pointer := by
      rw [World.entryAt, Git.placeWorktree_self]
      rfl
    others := fun other away => by
      simp [Git.placeWorktree, World.setRepository, World.setDirectory, World.makeParents, away]
    head := by simp [Git.placeWorktree, World.headOf, World.setRepository, known]
    worktrees := by simp [Git.placeWorktree, World.worktreesOf, World.setRepository, known]
    unregistered := by
      simpa [World.worktreesOf, known] using can.unregistered
    unmodified := by
      rw [World.modifiedAt, Git.placeWorktree_self]
      rfl
    modules := fun there => by
      rw [World.modulesIn, Git.placeWorktree_self] at there
      exact ⟨revision, by simpa [World.modulesOf, known] using there⟩
    branches := fun name member _ => by
      simpa [Git.placeWorktree, World.branchesOf, World.setRepository, known] using member }

theorem repositories_setRepository (world : World Location) (location : Location)
    (repository : Repository Location) :
    (world.setRepository location repository).repositories location = some repository := by
  simp [World.setRepository]

variable {branch : BranchName}

theorem placed_addWorktree_addBranch (owner : world.ownerAt (tree.locate repoPath) = some location)
    (known : world.repositories location = some repository)
    (ran : Git.addWorktree tree path location (repository.addBranch branch) (some branch) revision
      (world.setRepository location (repository.addBranch branch)) = .ok () next) :
    Placed tree repoPath path location (some branch) [] world next := by
  apply Placed.after_branchesOnly (branchesOnly_addBranch branch known)
  exact placed_addWorktree owner (repositories_setRepository world location _) ran

theorem placed_worktreeAddNew (owner : world.ownerAt (tree.locate repoPath) = some location)
    (ran : Git.worktreeAddNew tree repoPath path branch start world = .ok () next) :
    Placed tree repoPath path location (some branch) [] world next := by
  rcases Git.inRepository_eq_ok ran with ⟨other, repository, found, ran⟩
  rcases World.repositoryAt_eq_some_iff.mp found with ⟨otherOwner, known⟩
  rw [owner] at otherOwner
  cases otherOwner
  split at ran
  · cases ran
  · split at ran
    · cases ran
    · exact placed_addWorktree_addBranch owner known ran

def attached (repository : Repository Location) (revision : List Char) : Option BranchName :=
  if revision ∈ repository.branches ∨ repository.namesCommit revision = false then some revision
  else none

theorem placed_worktreeAdd (ran : Git.worktreeAdd tree repoPath path revision world = .ok () next) :
    ∃ location repository, world.repositoryAt tree repoPath = some (location, repository) ∧
      Placed tree repoPath path location (attached repository revision) [] world next := by
  rcases Git.inRepository_eq_ok ran with ⟨location, repository, found, ran⟩
  refine ⟨location, repository, found, ?_⟩
  rcases World.repositoryAt_eq_some_iff.mp found with ⟨owner, known⟩
  rw [attached]
  split at ran
  next member =>
    rw [if_pos (Or.inl member)]
    exact placed_addWorktree owner known ran
  next notBranch =>
    split at ran
    next commit =>
      rw [if_neg (by simp [notBranch, commit])]
      exact placed_addWorktree owner known ran
    next noCommit =>
      rw [if_pos (Or.inr (by simpa using noCommit))]
      split at ran
      · exact placed_addWorktree_addBranch owner known ran
      · cases ran

/-- An attempt to add a worktree has only made the branch, or has filled the place. -/
def Attempted (tree : FileTree Location) (repoPath path : Path) (before after : World Location) :
    Prop :=
  KeepsTo tree repoPath [] before after ∨ (after.directories (tree.locate path)).isSome

instance (tree : FileTree Location) (repoPath path : Path) :
    Std.Refl (Attempted tree repoPath path) where
  refl world := Or.inl (Std.Refl.refl world)

theorem attempted_worktreeAddNew (tree : FileTree Location) (repoPath path : Path)
    (branch : BranchName) (start : List Char) (world : World Location) :
    Attempted tree repoPath path world
      (Git.worktreeAddNew tree repoPath path branch start world).final := by
  cases ran : Git.worktreeAddNew tree repoPath path branch start world with
  | ok value next => exact Or.inr (Git.present_of_worktreeAddNew ran)
  | error refusal next =>
      left
      rw [Outcome.final_error]
      rcases Git.worktreeAddNew_eq_error ran with ⟨rfl, -⟩ | ⟨location, repository, found, rfl, -⟩
      · exact Std.Refl.refl _
      · refine ⟨rfl, ?_⟩
        intro other owner
        rcases World.repositoryAt_eq_some_iff.mp found with ⟨found, known⟩
        rw [owner] at found
        cases found
        exact branchesOnly_addBranch branch known

theorem attempted_of_failed (failed : (execFileAsync timeoutMs fault arguments
      (Git.worktreeAddNew tree repoPath path branch start)).run world = .error message next) :
    Attempted tree repoPath path world next := by
  have attempted := execFileAsync_final
    (attempted_worktreeAddNew tree repoPath path branch start world) timeoutMs fault arguments
  rw [failed] at attempted
  exact attempted

theorem worktreesOf_setRepository (world : World Location) (location : Location)
    (repository : Repository Location) :
    (world.setRepository location repository).worktreesOf location = repository.worktrees := by
  simp [World.worktreesOf, World.setRepository]

theorem relabel_added {worktrees : List (Worktree Location)}
    (unregistered : ∀ worktree ∈ worktrees, worktree.location ≠ target)
    (branch moved : Option BranchName) :
    (worktrees ++ [({ location := target, branch } : Worktree Location)]).map
      (fun worktree : Worktree Location =>
        if worktree.location = target then { worktree with branch := moved } else worktree) =
      worktrees ++ [{ location := target, branch := moved }] := by
  have others : worktrees.map
      (fun worktree : Worktree Location =>
        if worktree.location = target then { worktree with branch := moved } else worktree) =
      worktrees := by
    conv_rhs => rw [← List.map_id worktrees]
    apply List.map_congr_left
    intro worktree member
    rw [if_neg (unregistered worktree member)]
    rfl
  rw [List.map_append, others]
  simp

theorem placed_checkoutNew {branch : Option BranchName} {spared : List BranchName}
    {before : World Location}
    (placed : Placed tree repoPath path location branch spared before world) (name : BranchName)
    (start : List Char) :
    ∃ moved, Placed tree repoPath path location moved spared before
      (Git.checkoutNew tree path name start world).final ∧
      ∀ next, Git.checkoutNew tree path name start world = .ok () next →
        moved = some name ∧ name ∈ next.branchesOf location := by
  rcases placed.known with ⟨repository, known⟩
  rcases placed.entry with ⟨content, entry⟩
  have found := World.repositoryAt_eq_some_iff.mpr ⟨placed.owned, known⟩
  rw [World.entryAt] at entry
  rw [Git.checkoutNew, Git.inRepository_of_some _ found]
  have refusal : ∀ reason : Int × List Char, ∃ moved,
      Placed tree repoPath path location moved spared before
        (Outcome.error reason world : Outcome (Int × List Char) (World Location) Unit).final ∧
      ∀ next, (Outcome.error reason world : Outcome (Int × List Char) (World Location) Unit) =
        .ok () next → moved = some name ∧ name ∈ next.branchesOf location := by
    intro reason
    refine ⟨branch, placed, ?_⟩
    intro next impossible
    cases impossible
  split
  · exact refusal _
  · split
    · exact refusal _
    · simp only [entry]
      refine ⟨some name, ?_, ?_⟩
      · exact {
          __ := placed
          others := fun other away => by
            rw [← placed.others other away]
            simp [World.setRepository, away]
          head := by
            rw [← placed.head]
            simp [World.headOf, World.setRepository, known]
          worktrees := by
            have worktrees := placed.worktrees
            rw [World.worktreesOf, known] at worktrees
            simp only [Option.map_some, Option.getD_some] at worktrees
            rw [Outcome.final_ok, worktreesOf_setRepository, worktrees]
            exact relabel_added placed.unregistered branch (some name)
          branches := fun other member kept => by
            have there := placed.branches other member kept
            rw [World.branchesOf, known] at there
            simpa [World.branchesOf, World.setRepository] using mem_addBranch_of_mem name there }
      · intro next done
        cases done
        refine ⟨rfl, ?_⟩
        simpa [World.branchesOf, World.setRepository] using mem_addBranch_self repository name

end Git

end HarnessAgent
