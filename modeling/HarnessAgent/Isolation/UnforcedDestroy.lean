import HarnessAgent.Isolation.WorktreeProvider

/-! # Destroying without force

When destroying a worktree without force deletes a directory that git has refused to
remove.
-/

namespace HarnessAgent

open LexicalPath StatefulRun

section

variable {Location : Type}

def SameDirectories (before after : World Location) : Prop :=
  after.directories = before.directories

instance : Std.Refl (@SameDirectories Location) where
  refl _ := rfl

instance : IsTrans (World Location) SameDirectories where
  trans _ _ _ first second := Eq.trans second first

variable {relation : World Location → World Location → Prop}

theorem Git.inRepository_final [Std.Refl relation] {tree : FileTree Location} {path : Path}
    (leads : ∀ location repository world, world.repositories location = some repository →
      relation world (command location repository world).final) (world : World Location) :
    relation world (Git.inRepository tree path command world).final := by
  rw [Git.inRepository]
  split
  · exact Std.Refl.refl world
  · split
    · exact Std.Refl.refl world
    · split
      · exact Std.Refl.refl world
      · next found => exact leads _ _ world found

theorem execFileAsync_final [Std.Refl relation] {world : World Location}
    (acted : relation world (command world).final) (timeoutMs : Nat) (fault : Option Fault)
    (arguments : List (List Char)) :
    relation world ((execFileAsync timeoutMs fault arguments command).run world).final := by
  rw [execFileAsync]
  cases fault with
  | some fault =>
      simp only [Outcome.final_error]
      split
      · exact acted
      · exact Std.Refl.refl world
  | none =>
      cases answer : command world with
      | ok value next =>
          rw [answer] at acted
          simp only [answer]
          exact acted
      | error refusal next =>
          rw [answer] at acted
          simp only [answer]
          exact acted

theorem leads_execFileAsync [Std.Refl relation]
    (leads : ∀ world, relation world (command world).final) (timeoutMs : Nat) (fault : Option Fault)
    (arguments : List (List Char)) :
    Leads relation (execFileAsync timeoutMs fault arguments command) :=
  fun world => execFileAsync_final (leads world) timeoutMs fault arguments

end

variable {Location : Type} [DecidableEq Location] (tree : FileTree Location)

theorem Git.sameDirectories_worktreePrune (repoPath : Path)
    (world : World Location) :
    SameDirectories world (Git.worktreePrune tree repoPath world).final := by
  apply Git.inRepository_final
  intro location repository world found
  rfl

theorem Git.sameDirectories_branchDelete (repoPath : Path)
    (branch : BranchName) (world : World Location) :
    SameDirectories world (Git.branchDelete tree repoPath branch world).final := by
  apply Git.inRepository_final
  intro location repository world found
  split
  · rfl
  · split
    · rfl
    · rfl

theorem Git.sameDirectories_pushDelete (repoPath : Path)
    (branch : BranchName) (world : World Location) :
    SameDirectories world (Git.pushDelete tree repoPath branch world).final := by
  apply Git.inRepository_final
  intro location repository world found
  split
  · rfl
  · rfl

namespace WorktreeProvider

variable (provider : WorktreeProvider Location) (outside : Outside)

section

variable {relation : World Location → World Location → Prop} [Std.Refl relation] {repoPath : Path}

theorem leads_pruneAndVerify
    (prunes : ∀ world, relation world (Git.worktreePrune provider.tree repoPath world).final)
    (path : Path) (result : DestroyResult) :
    Leads relation (pruneAndVerify provider outside repoPath path result) := by
  intro world
  have pruned := leads_execFileAsync prunes 15000 (outside.git .prune)
    ["-C".toList, repoPath, "worktree".toList, "prune".toList] world
  rw [pruneAndVerify]
  dsimp only
  split
  · exact pruned
  · exact pruned

theorem leads_deleteBranchTracked (deletes : ∀ world,
      relation world (Git.branchDelete provider.tree repoPath branchName world).final)
    (result : DestroyResult) :
    Leads relation (deleteBranchTracked provider outside repoPath branchName result) := by
  intro world
  have deleted := leads_execFileAsync deletes gitOperationTimeoutMs (outside.git .deleteBranch)
    ["-C".toList, repoPath, "branch".toList, "-D".toList, branchName] world
  rw [← git] at deleted
  rw [deleteBranchTracked]
  dsimp only
  split
  next ran =>
    rw [ran] at deleted
    exact deleted
  next ran =>
    rw [ran] at deleted
    split
    · exact deleted
    · split
      · exact deleted
      · exact deleted

theorem leads_deleteRemoteBranchTracked (deletes : ∀ world,
      relation world (Git.pushDelete provider.tree repoPath branchName world).final)
    (result : DestroyResult) :
    Leads relation (deleteRemoteBranchTracked provider outside repoPath branchName result) := by
  intro world
  have deleted := leads_execFileAsync deletes gitOperationTimeoutMs (outside.git .deleteRemote)
    ["-C".toList, repoPath, "push".toList, "origin".toList, "--delete".toList, branchName] world
  rw [← git] at deleted
  rw [deleteRemoteBranchTracked]
  dsimp only
  split
  next ran =>
    rw [ran] at deleted
    exact deleted
  next ran =>
    rw [ran] at deleted
    split
    · exact deleted
    · exact deleted

theorem leads_deleteBranches [IsTrans (World Location) relation] {options : DestroyOptions}
    (deletes : ∀ branchName, options.branchName = some branchName → ∀ world,
      relation world (Git.branchDelete provider.tree repoPath branchName world).final)
    (pushes : ∀ branchName world,
      relation world (Git.pushDelete provider.tree repoPath branchName world).final)
    (result : DestroyResult) :
    Leads relation (deleteBranches provider outside repoPath options result) := by
  rw [deleteBranches]
  split
  · exact leads_pure _
  next branchName named =>
    apply leads_bind (leads_deleteBranchTracked provider outside (deletes branchName named) _)
    intro result
    split
    · exact leads_deleteRemoteBranchTracked provider outside (pushes branchName) result
    · exact leads_pure _

end

end WorktreeProvider

variable {directory : Directory Location} {path : Path}

theorem Git.worktreeRemove_of_modified {tree : FileTree Location} {world : World Location}
    (repoPath : Path) (there : world.directories (tree.locate path) = some directory)
    (modified : directory.modified = true) :
    ∃ refusal, Git.worktreeRemove tree repoPath path false world = .error refusal world := by
  rw [Git.worktreeRemove, Git.inRepository]
  split
  · exact ⟨_, rfl⟩
  · split
    · exact ⟨_, rfl⟩
    · split
      · exact ⟨_, rfl⟩
      · dsimp only
        split
        · exact ⟨_, rfl⟩
        · split
          · exact ⟨_, rfl⟩
          · split
            · exact ⟨_, rfl⟩
            · rw [there]
              dsimp only
              split
              · exact ⟨_, rfl⟩
              · split
                · exact ⟨_, rfl⟩
                · split
                  · exact ⟨_, rfl⟩
                  · rw [if_pos (by simp [modified])]
                    exact ⟨_, rfl⟩

theorem execFileAsync_of_refused {Location : Type} {command : GitCommand Location}
    {world : World Location} {refusal : Int × List Char}
    (refused : command world = .error refusal world) (timeoutMs : Nat) (fault : Option Fault)
    (arguments : List (List Char)) :
    ∃ message, (execFileAsync timeoutMs fault arguments command).run world =
      .error message world := by
  cases fault with
  | some fault =>
      exact ⟨processError (fault.message timeoutMs arguments), by simp [execFileAsync, refused]⟩
  | none =>
      exact ⟨processError (commandFailed arguments refusal.1 refusal.2),
        by simp [execFileAsync, refused]⟩

namespace WorktreeProvider

def repoPathOf {Location : Type} (provider : WorktreeProvider Location) (outside : Outside)
    (path : Path)
    (options : DestroyOptions) (world : World Location) : Except IsolationError Path :=
  match options.canonicalRepoPath with
  | some repoPath => .ok repoPath
  | none => getCanonicalRepoPath provider outside path world

/-- The error of git reads as if there were no worktree, and nothing keeps the
directory from being deleted after it. -/
structure TakenForMissing (provider : WorktreeProvider Location) (outside : Outside) (path : Path)
    (options : DestroyOptions) (world : World Location) : Prop where
  checked : outside.file .path = none
  missing : ∃ repoPath message next, repoPathOf provider outside path options world = .ok repoPath ∧
    (gitWorktreeRemove provider outside repoPath path options.force).run world =
      .error message next ∧ isWorktreeMissingError message = true
  rechecked : outside.file .remaining = none
  deletes : ∀ error, outside.file .removeRemaining = some error → error.acted = true

section

variable {provider : WorktreeProvider Location} {outside : Outside}

theorem directoryExists_run_of_error {Location : Type} (tree : FileTree Location) (path : Path)
    (world : World Location) (failing : error ≠ none) :
    ∃ failure, (directoryExists tree error path).run world = .error failure world := by
  cases error with
  | none => exact absurd rfl failing
  | some error => exact ⟨_, rfl⟩

theorem directoryExists_run {Location : Type} (tree : FileTree Location) (path : Path)
    (world : World Location) (checked : error = none) :
    (directoryExists tree error path).run world =
      .ok (world.directories (tree.locate path)).isSome world := by
  rw [checked]
  rfl

def destroyIn (provider : WorktreeProvider Location) (outside : Outside) (repoPath path : Path)
    (options : DestroyOptions) : Run Location DestroyResult := do
  let result ← removeWorktree provider outside repoPath path options.force {}
  let result ← pruneAndVerify provider outside repoPath path result
  deleteBranches provider outside repoPath options result

theorem destroyRepoPath_run {Location : Type} (provider : WorktreeProvider Location)
    (outside : Outside)
    (path : Path) (options : DestroyOptions) (world : World Location) :
    (destroyRepoPath provider outside path options true).run world =
      match repoPathOf provider outside path options world with
      | .ok repoPath => .ok (some repoPath) world
      | .error error => .error error world := by
  rw [destroyRepoPath, repoPathOf]
  cases options.canonicalRepoPath with
  | some repoPath => rfl
  | none =>
      rw [if_pos rfl, bind_of_ok (run_read world)]
      cases found : getCanonicalRepoPath provider outside path world with
      | ok repoPath => rfl
      | error error => rfl

variable {world : World Location}

theorem destroy_run_of_there (options : DestroyOptions) (checked : outside.file .path = none)
    (there : world.directories (provider.tree.locate path) = some directory) :
    (destroy provider outside path options).run world =
      match repoPathOf provider outside path options world with
      | .ok repoPath => (destroyIn provider outside repoPath path options).run world
      | .error error => .error error world := by
  have present := directoryExists_run provider.tree path world checked
  rw [there, Option.isSome_some] at present
  have located := destroyRepoPath_run provider outside path options world
  rw [destroy, bind_of_ok present]
  cases found : repoPathOf provider outside path options world with
  | ok repoPath =>
      rw [found] at located
      rw [bind_of_ok located]
      rfl
  | error error =>
      rw [found] at located
      rw [bind_of_error located]

theorem directories_destroyIn (repoPath path : Path) (options : DestroyOptions)
    (world : World Location) :
    ((destroyIn provider outside repoPath path options).run world).final.directories =
      ((removeWorktree provider outside repoPath path options.force {}).run
        world).final.directories := by
  rw [destroyIn]
  cases removed : (removeWorktree provider outside repoPath path options.force {}).run world with
  | ok result next =>
      rw [bind_of_ok removed]
      have onward : Leads SameDirectories (do
          let result ← pruneAndVerify provider outside repoPath path result
          deleteBranches provider outside repoPath options result) :=
        leads_bind
          (leads_pruneAndVerify provider outside
            (Git.sameDirectories_worktreePrune provider.tree repoPath) path result)
          (leads_deleteBranches provider outside
            (fun branchName _ => Git.sameDirectories_branchDelete provider.tree repoPath branchName)
            (Git.sameDirectories_pushDelete provider.tree repoPath))
      exact onward next
  | error error next => rw [bind_of_error removed]

variable {force : Option Bool}

theorem gitWorktreeRemove_of_modified (repoPath : Path) (unforced : force ≠ some true)
    (there : world.directories (provider.tree.locate path) = some directory)
    (modified : directory.modified = true) :
    ∃ message, (gitWorktreeRemove provider outside repoPath path force).run world =
      .error message world := by
  rcases Git.worktreeRemove_of_modified repoPath there modified with ⟨refusal, refused⟩
  rw [gitWorktreeRemove, git, decide_eq_false unforced]
  exact execFileAsync_of_refused refused _ _ _

theorem removeRegistered_of_error
    (answer : (gitWorktreeRemove provider outside repoPath path force).run world =
      .error message next) :
    (removeRegistered provider outside repoPath path force).run world =
      if isWorktreeMissingError message then .ok () next else .error (.other message) next := by
  simp only [removeRegistered, answer]

theorem removeTree_self {Location : Type} (tree : FileTree Location) (location : Location)
    (world : World Location) : (world.removeTree tree location).directories location = none := by
  simp [World.removeTree, tree.within_self]

omit [DecidableEq Location] in
theorem directories_removeRemaining (result : DestroyResult)
    (there : world.directories (provider.tree.locate path) = some directory) :
    ((removeRemaining provider outside path result).run world).final.directories
        (provider.tree.locate path) = none ↔
      ∀ error, outside.file .removeRemaining = some error → error.acted = true := by
  have gone := removeTree_self provider.tree (provider.tree.locate path) world
  cases fault : outside.file .removeRemaining with
  | none =>
      have ran : (removeDirAll provider.tree (outside.file .removeRemaining) path).run world =
          .ok () (world.removeTree provider.tree (provider.tree.locate path)) := by
        simp only [removeDirAll, fault, there, Option.isSome_some, if_true]
      simp only [removeRemaining, ran, Outcome.final_ok, gone, reduceCtorEq, false_implies,
        implies_true]
  | some error =>
      have ran : (removeDirAll provider.tree (outside.file .removeRemaining) path).run world =
          .error error.text (if error.acted then
            world.removeTree provider.tree (provider.tree.locate path) else world) := by
        simp only [removeDirAll, fault]
      simp only [removeRemaining, ran, Outcome.final_ok, Option.some.injEq, forall_eq']
      cases error.acted with
      | true => simp only [if_true, gone]
      | false => simp only [Bool.false_eq_true, if_false, there, reduceCtorEq]

/-- The directory of a refused removal goes exactly if the refusal is taken for a
missing worktree. -/
theorem directories_removeWorktree_of_error (result : DestroyResult)
    (answer : (gitWorktreeRemove provider outside repoPath path force).run world =
      .error message world) (there : world.directories (provider.tree.locate path) = some directory) :
    ((removeWorktree provider outside repoPath path force result).run world).final.directories
        (provider.tree.locate path) = none ↔
      isWorktreeMissingError message = true ∧ outside.file .remaining = none ∧
        ∀ error, outside.file .removeRemaining = some error → error.acted = true := by
  have registered := removeRegistered_of_error answer
  rw [removeWorktree]
  cases missing : isWorktreeMissingError message with
  | false =>
      rw [missing] at registered
      rw [bind_of_error registered]
      simp [there]
  | true =>
      rw [missing] at registered
      rw [bind_of_ok registered]
      cases rechecked : outside.file .remaining with
      | some error =>
          rcases directoryExists_run_of_error provider.tree path world
            (Option.some_ne_none error) with ⟨failure, failed⟩
          rw [bind_of_error failed]
          simp [there]
      | none =>
          have remains := directoryExists_run provider.tree path world (rfl : none = none)
          rw [there, Option.isSome_some] at remains
          rw [bind_of_ok remains, if_pos rfl, directories_removeRemaining _ there]
          simp

theorem directories_destroy_of_modified {options : DestroyOptions}
    (unforced : options.force ≠ some true)
    (there : world.directories (provider.tree.locate path) = some directory)
    (modified : directory.modified = true) :
    ((destroy provider outside path options).run world).final.directories
        (provider.tree.locate path) = none ↔
      TakenForMissing provider outside path options world := by
  cases checked : outside.file .path with
  | some error =>
      rcases directoryExists_run_of_error provider.tree path world
        (Option.some_ne_none error) with ⟨failure, failed⟩
      rw [← checked] at failed
      rw [destroy, bind_of_error failed]
      apply iff_of_false
      · simp [there]
      · intro taken
        rw [taken.checked] at checked
        cases checked
  | none =>
      rw [destroy_run_of_there options checked there]
      cases found : repoPathOf provider outside path options world with
      | error error =>
          apply iff_of_false
          · simp [there]
          · intro taken
            rcases taken.missing with ⟨repoPath, message, next, found', -⟩
            rw [found] at found'
            cases found'
      | ok repoPath =>
          rcases gitWorktreeRemove_of_modified repoPath unforced there modified with
            ⟨message, answer⟩
          dsimp only
          rw [directories_destroyIn, directories_removeWorktree_of_error _ answer there]
          constructor
          · intro deleted
            exact ⟨checked, ⟨repoPath, message, world, found, answer, deleted.1⟩, deleted.2.1,
              deleted.2.2⟩
          · intro taken
            rcases taken.missing with ⟨repoPath', message', next, found', answer', missing⟩
            rw [found] at found'
            cases found'
            rw [answer] at answer'
            cases answer'
            exact ⟨missing, taken.rechecked, taken.deletes⟩

end

end WorktreeProvider

open WorktreeProvider

/-- Without force, a directory with uncommitted or untracked files disappears only by
git's own removal. -/
def KeepsWork (provider : WorktreeProvider Location) (outside : Outside) (path : Path)
    (options : DestroyOptions) (world : World Location) : Prop :=
  ∀ directory, world.directories (provider.tree.locate path) = some directory →
    directory.modified = true →
    ((destroy provider outside path options).run world).final.directories
      (provider.tree.locate path) = none →
    ∃ repoPath next, repoPathOf provider outside path options world = .ok repoPath ∧
      (gitWorktreeRemove provider outside repoPath path options.force).run world = .ok () next

namespace UnforcedDestroy

def pathTree : FileTree Path where
  locate := id
  spell := id
  locate_spell := fun _ => rfl
  within := fun inner outer => inner == outer || (outer ++ ['/']).isPrefixOf inner
  within_self := fun _ => by simp

def provider : WorktreeProvider Path where
  tree := pathTree
  around := { canonicalize := fun _ => none, archonHome := .ok "/home/me/.archon".toList }
  shortHash := id
  loadConfig := fun _ => none

def world : World Path where
  directories := fun path =>
    if path = "/srv/app".toList then
      some { entry := some .checkout, repository := some "/srv/app".toList }
    else if path = "/work/x".toList then
      some { entry := some (.pointer "gitdir: /srv/clone/.git/worktrees/x".toList), modified := true }
    else if path = "/work/y".toList then
      some {
        entry := some (.pointer "gitdir: /srv/app/.git/worktrees/y".toList)
        repository := some "/srv/app".toList
        modified := true }
    else none
  repositories := fun path =>
    if path = "/srv/app".toList then
      some {
        head := some "main".toList
        branches := ["main".toList, "topic".toList]
        worktrees := [{ location := "/work/y".toList, branch := some "topic".toList }] }
    else none

def options : DestroyOptions where
  canonicalRepoPath := some "/srv/app".toList

def outside : Outside where
  sync := .ok "main".toList

end UnforcedDestroy

end HarnessAgent
