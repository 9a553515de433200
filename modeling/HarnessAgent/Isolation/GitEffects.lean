import HarnessAgent.Isolation.Resolver

/-! # What the commands do

For each git command, what it takes to succeed and what has changed then.
-/

namespace HarnessAgent

open LexicalPath StatefulRun

section

variable {Location : Type}

/-! ## Finding the repository -/

def World.repositoryAt (tree : FileTree Location) (path : Path) (world : World Location) :
    Option (Location × Repository Location) := do
  let directory ← world.directories (tree.locate path)
  let location ← directory.repository
  let repository ← world.repositories location
  some (location, repository)

variable {path : Path} {tree : FileTree Location} {world : World Location}

theorem World.repositoryAt_eq_some {location : Location} {repository : Repository Location} :
    world.repositoryAt tree path = some (location, repository) ↔
      ∃ directory, world.directories (tree.locate path) = some directory ∧
        directory.repository = some location ∧ world.repositories location = some repository := by
  rw [repositoryAt]
  simp [Option.bind_eq_some_iff]

theorem Git.inRepository_of_some (command : Location → Repository Location → GitCommand Location)
    (found : world.repositoryAt tree path = some (location, repository)) :
    Git.inRepository tree path command world = command location repository world := by
  rcases World.repositoryAt_eq_some.mp found with ⟨directory, there, owner, known⟩
  simp only [Git.inRepository, there, owner, known]

theorem Git.inRepository_of_none (command : Location → Repository Location → GitCommand Location)
    (missing : world.repositoryAt tree path = none) :
    ∃ refusal, Git.inRepository tree path command world = .error refusal world := by
  rw [Git.inRepository]
  split
  · exact ⟨_, rfl⟩
  · next directory there =>
      split
      · exact ⟨_, rfl⟩
      · next location owner =>
          split
          · exact ⟨_, rfl⟩
          · next repository known =>
              have found := World.repositoryAt_eq_some.mpr ⟨directory, there, owner, known⟩
              rw [missing] at found
              cases found

variable {next : World Location}

theorem Git.inRepository_eq_ok (ran : Git.inRepository tree path command world = .ok () next) :
    ∃ location repository, world.repositoryAt tree path = some (location, repository) ∧
      command location repository world = .ok () next := by
  cases found : world.repositoryAt tree path with
  | none =>
      rcases Git.inRepository_of_none command found with ⟨refusal, refused⟩
      rw [refused] at ran
      cases ran
  | some pair =>
      rcases pair with ⟨location, repository⟩
      rw [Git.inRepository_of_some command found] at ran
      exact ⟨location, repository, rfl, ran⟩

theorem Git.inRepository_eq_error
    (ran : Git.inRepository tree path command world = .error refusal next) :
    (world.repositoryAt tree path = none ∧ next = world) ∨
      ∃ location repository, world.repositoryAt tree path = some (location, repository) ∧
        command location repository world = .error refusal next := by
  cases found : world.repositoryAt tree path with
  | none =>
      rcases Git.inRepository_of_none command found with ⟨other, refused⟩
      rw [refused] at ran
      cases ran
      exact Or.inl ⟨rfl, rfl⟩
  | some pair =>
      rcases pair with ⟨location, repository⟩
      rw [Git.inRepository_of_some command found] at ran
      exact Or.inr ⟨location, repository, rfl, ran⟩

/-! ## Running -/

theorem execFileAsync_eq_ok {timeoutMs : Nat} {fault : Option Fault} {arguments : List (List Char)}
    {command : GitCommand Location} :
    (execFileAsync timeoutMs fault arguments command).run world = .ok () next ↔
      fault = none ∧ command world = .ok () next := by
  cases fault with
  | some fault => simp [execFileAsync]
  | none =>
      cases answer : command world with
      | ok value final => simp [execFileAsync, answer]
      | error refusal final => simp [execFileAsync, answer]

theorem execFileAsync_eq_error
    (failed : (execFileAsync timeoutMs fault arguments command).run world = .error message next) :
    (fault = none ∧ ∃ refusal, command world = .error refusal next) ∨
      ∃ outer, fault = some outer ∧
        next = if outer.acted then (command world).final else world := by
  cases fault with
  | some outer =>
      cases failed
      exact Or.inr ⟨outer, rfl, rfl⟩
  | none =>
      cases answer : command world with
      | ok value final => simp [execFileAsync, answer] at failed
      | error refusal final =>
          simp [execFileAsync, answer] at failed
          exact Or.inl ⟨rfl, refusal, by rw [failed.2]⟩

theorem orOther_eq_ok {α : Type} {first : StatefulRun (List Char) (World Location) α} {value : α} :
    (orOther first).run world = .ok value next ↔ first.run world = .ok value next :=
  mapError_eq_ok

theorem WorktreeProvider.unlessExists_eq_ok {command : GitRun Location}
    {instead : Run Location Unit} {final : World Location} :
    (WorktreeProvider.unlessExists command instead).run world = .ok () final ↔
      command.run world = .ok () final ∨
        ∃ message next, command.run world = .error message next ∧
          WorktreeProvider.alreadyExists message = true ∧ instead.run next = .ok () final := by
  cases ran : command.run world with
  | ok value next => simp [WorktreeProvider.unlessExists, ran]
  | error message next =>
      cases existing : WorktreeProvider.alreadyExists message with
      | true => simp [WorktreeProvider.unlessExists, ran, existing]
      | false => simp [WorktreeProvider.unlessExists, ran, existing]

end

variable {Location : Type} [DecidableEq Location]

/-! ## Adding a worktree -/

structure Git.CanAdd (tree : FileTree Location) (path : Path) (location : Location)
    (repository : Repository Location) (branch : Option BranchName) (world : World Location) :
    Prop where
  absent : world.directories (tree.locate path) = none
  unregistered : ∀ worktree ∈ repository.worktrees, worktree.location ≠ tree.locate path
  free : branch.bind (repository.holder location) = none

variable {branch : Option BranchName} {location : Location} {repository : Repository Location}

variable {tree : FileTree Location}

theorem Git.addWorktree_of_canAdd (revision : List Char)
    (can : Git.CanAdd tree path location repository branch world) :
    Git.addWorktree tree path location repository branch revision world =
      .ok () (Git.placeWorktree tree path location repository branch revision world) := by
  have unregistered : repository.worktrees.any (·.location = tree.locate path) = false := by
    simpa using can.unregistered
  simp only [Git.addWorktree, can.absent, unregistered, can.free, Option.isSome_none,
    Bool.false_eq_true, if_false]

theorem Git.addWorktree_of_not_canAdd (revision : List Char)
    (cannot : ¬Git.CanAdd tree path location repository branch world) :
    ∃ refusal, Git.addWorktree tree path location repository branch revision world =
      .error refusal world := by
  rw [Git.addWorktree]
  split
  · exact ⟨_, rfl⟩
  · next absent =>
      split
      · exact ⟨_, rfl⟩
      · next unregistered =>
          split
          · exact ⟨_, rfl⟩
          · next free =>
              exfalso
              apply cannot
              refine ⟨by simpa using absent, ?_, free⟩
              simpa using unregistered

theorem Git.addWorktree_eq_ok
    (ran : Git.addWorktree tree path location repository branch revision world = .ok () next) :
    Git.CanAdd tree path location repository branch world ∧
      next = Git.placeWorktree tree path location repository branch revision world := by
  by_cases can : Git.CanAdd tree path location repository branch world
  · rw [Git.addWorktree_of_canAdd revision can] at ran
    cases ran
    exact ⟨can, rfl⟩
  · rcases Git.addWorktree_of_not_canAdd revision can with ⟨refusal, refused⟩
    rw [refused] at ran
    cases ran

variable {repoPath : Path}

theorem Git.absent_of_worktreeAdd
    (ran : Git.worktreeAdd tree repoPath path revision world = .ok () next) :
    world.directories (tree.locate path) = none := by
  rcases Git.inRepository_eq_ok ran with ⟨location, repository, -, ran⟩
  split at ran
  · exact (Git.addWorktree_eq_ok ran).1.absent
  · split at ran
    · exact (Git.addWorktree_eq_ok ran).1.absent
    · split at ran
      · exact (Git.addWorktree_eq_ok ran).1.absent
      · cases ran

theorem Git.placeWorktree_self (tree : FileTree Location) (path : Path) (location : Location)
    (repository : Repository Location) (branch : Option BranchName) (revision : List Char)
    (world : World Location) :
    (Git.placeWorktree tree path location repository branch revision world).directories
      (tree.locate path) =
      some { entry := some (.pointer (Git.pointerTo tree location path))
             repository := some location
             hasGitmodules := repository.modulesAt revision } := by
  simp [Git.placeWorktree, World.setRepository, World.setDirectory]

theorem Git.present_of_worktreeAddNew {branch : BranchName}
    (ran : Git.worktreeAddNew tree repoPath path branch start world = .ok () next) :
    (next.directories (tree.locate path)).isSome := by
  rcases Git.inRepository_eq_ok ran with ⟨location, repository, -, ran⟩
  split at ran
  · cases ran
  · split at ran
    · cases ran
    · rw [(Git.addWorktree_eq_ok ran).2, Git.placeWorktree_self]
      rfl

/-- Why an attempt with a new branch is refused. The branch has been made already if it
is for the place or the branch not being free. -/
theorem Git.worktreeAddNew_eq_error {branch : BranchName}
    (ran : Git.worktreeAddNew tree repoPath path branch start world = .error refusal next) :
    (next = world ∧ ∀ location repository,
      world.repositoryAt tree repoPath = some (location, repository) →
      branch ∈ repository.branches ∨ repository.resolves start = false) ∨
      ∃ location repository, world.repositoryAt tree repoPath = some (location, repository) ∧
        next = world.setRepository location (repository.addBranch branch) ∧
        ¬Git.CanAdd tree path location (repository.addBranch branch) (some branch) next := by
  rcases Git.inRepository_eq_error ran with ⟨missing, rfl⟩ | ⟨location, repository, found, ran⟩
  · left
    refine ⟨rfl, ?_⟩
    intro location repository found
    rw [missing] at found
    cases found
  · split at ran
    next member =>
      cases ran
      left
      refine ⟨rfl, ?_⟩
      intro location' repository' same
      rw [found] at same
      cases same
      exact Or.inl member
    next =>
      split at ran
      next unresolved =>
        cases ran
        left
        refine ⟨rfl, ?_⟩
        intro location' repository' same
        rw [found] at same
        cases same
        exact Or.inr (by simpa using unresolved)
      next =>
        right
        dsimp only at ran
        by_cases can : Git.CanAdd tree path location (repository.addBranch branch) (some branch)
            (world.setRepository location (repository.addBranch branch))
        · rw [Git.addWorktree_of_canAdd start can] at ran
          cases ran
        · rcases Git.addWorktree_of_not_canAdd start can with ⟨other, refused⟩
          rw [refused] at ran
          cases ran
          exact ⟨location, repository, found, rfl, can⟩

end HarnessAgent
