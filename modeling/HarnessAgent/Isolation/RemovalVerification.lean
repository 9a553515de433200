import HarnessAgent.Isolation.BranchIdentity

/-! # The verification of a removal

After destroying an environment, the list of worktrees is read once more. An entry that
is still there counts as not removed, unless the verification does not see it: it looks
for the directory of an entry, which is gone.
-/

namespace HarnessAgent

open LexicalPath StatefulRun

section

variable {Location : Type}

/-! ## Entries of a repository -/

/-- `git worktree list` in a directory shows an entry for a place. The main checkout is
one of them as long as it is there. -/
def Listed (tree : FileTree Location) (repoPath : Path) (target : Location)
    (world : World Location) : Prop :=
  ∃ location repository, world.repositoryAt tree repoPath = some (location, repository) ∧
    ((target = location ∧ (world.directories target).isSome = true) ∨
      ∃ worktree ∈ repository.worktrees, worktree.location = target)

def Prunes (outside : Outside) : Prop :=
  ∀ fault, outside.git .prune = some fault → fault.acted = true

/-- A checkout in a place, with its branch, which pruning does not take away. -/
def SurvivesPruning (outside : Outside) (world : World Location) (target location : Location)
    (repository : Repository Location) (branch : Option BranchName) : Prop :=
  (target = location ∧ (world.directories target).isSome = true ∧ branch = repository.head) ∨
    ∃ worktree ∈ repository.worktrees, worktree.location = target ∧ worktree.branch = branch ∧
      (worktree.locked = true ∨ world.hasEntry target = true ∨ ¬Prunes outside)

structure SameWorktrees (before after : World Location) : Prop where
  directories : after.directories = before.directories
  worktrees : ∀ location, (after.repositories location).map (·.worktrees) =
    (before.repositories location).map (·.worktrees)

instance : Std.Refl (@SameWorktrees Location) where
  refl _ := ⟨rfl, fun _ => rfl⟩

instance : IsTrans (World Location) SameWorktrees where
  trans _ _ _ first second :=
    ⟨second.directories.trans first.directories,
      fun location => (second.worktrees location).trans (first.worktrees location)⟩

theorem SameWorktrees.listed (same : SameWorktrees before after) {tree : FileTree Location}
    (listed : Listed tree repoPath target after) : Listed tree repoPath target before := by
  rcases listed with ⟨location, repository, found, entry⟩
  rcases World.repositoryAt_eq_some.mp found with ⟨directory, there, owner, known⟩
  have worktrees := same.worktrees location
  rw [known, Option.map_some] at worktrees
  rcases Option.map_eq_some_iff.mp worktrees.symm with ⟨earlier, knownEarlier, sameWorktrees⟩
  rw [same.directories] at there entry
  rw [← sameWorktrees] at entry
  exact ⟨location, earlier,
    World.repositoryAt_eq_some.mpr ⟨directory, there, owner, knownEarlier⟩, entry⟩

theorem SameWorktrees.symm {before after : World Location} (same : SameWorktrees before after) :
    SameWorktrees after before :=
  ⟨same.directories.symm, fun location => (same.worktrees location).symm⟩

theorem SameWorktrees.listed_iff (same : SameWorktrees before after) {tree : FileTree Location}
    {repoPath : Path} {target : Location} :
    Listed tree repoPath target after ↔ Listed tree repoPath target before :=
  ⟨same.listed, same.symm.listed⟩

end

variable {Location : Type} [DecidableEq Location] {location : Location}

theorem sameWorktrees_setRepository {world : World Location} {repository : Repository Location}
    (known : world.repositories location = some repository)
    (worktrees : changed.worktrees = repository.worktrees) :
    SameWorktrees world (world.setRepository location changed) where
  directories := rfl
  worktrees := by
    intro other
    by_cases same : other = location
    · subst other
      simp [World.setRepository, known, worktrees]
    · simp [World.setRepository, same]

namespace Git

theorem sameWorktrees_branchDelete (tree : FileTree Location) (repoPath : Path)
    (branch : BranchName) (world : World Location) :
    SameWorktrees world (Git.branchDelete tree repoPath branch world).final := by
  apply Git.inRepository_final
  intro location repository world known
  split
  · exact Std.Refl.refl world
  · split
    · exact sameWorktrees_setRepository known rfl
    · exact Std.Refl.refl world

theorem sameWorktrees_pushDelete (tree : FileTree Location) (repoPath : Path)
    (branch : BranchName) (world : World Location) :
    SameWorktrees world (Git.pushDelete tree repoPath branch world).final := by
  apply Git.inRepository_final
  intro location repository world known
  split
  · exact sameWorktrees_setRepository known rfl
  · exact Std.Refl.refl world

end Git

namespace WorktreeProvider

variable (provider : WorktreeProvider Location) (outside : Outside)

/-! ## Deleting the branches -/

theorem deleteBranchTracked_run (repoPath : Path) (branchName : BranchName)
    (result : DestroyResult) (world : World Location) :
    ∃ later next, (deleteBranchTracked provider outside repoPath branchName result).run world =
        .ok later next ∧ later.worktreeRemoved = result.worktreeRemoved := by
  rw [deleteBranchTracked]
  dsimp only
  split
  · exact ⟨_, _, rfl, rfl⟩
  · split
    · exact ⟨_, _, rfl, rfl⟩
    · split
      · exact ⟨_, _, rfl, rfl⟩
      · exact ⟨_, _, rfl, rfl⟩

theorem deleteRemoteBranchTracked_run (repoPath : Path) (branchName : BranchName)
    (result : DestroyResult) (world : World Location) :
    ∃ later next,
      (deleteRemoteBranchTracked provider outside repoPath branchName result).run world =
        .ok later next ∧ later.worktreeRemoved = result.worktreeRemoved := by
  rw [deleteRemoteBranchTracked]
  dsimp only
  split
  · exact ⟨_, _, rfl, rfl⟩
  · split
    · exact ⟨_, _, rfl, rfl⟩
    · exact ⟨_, _, rfl, rfl⟩

theorem deleteBranches_run (repoPath : Path) (options : DestroyOptions) (result : DestroyResult)
    (world : World Location) :
    ∃ later next, (deleteBranches provider outside repoPath options result).run world =
        .ok later next ∧ later.worktreeRemoved = result.worktreeRemoved ∧
        SameWorktrees world next := by
  have leads : Leads SameWorktrees (deleteBranches provider outside repoPath options result) :=
    leads_deleteBranches provider outside
      (fun branchName _ => Git.sameWorktrees_branchDelete provider.tree repoPath branchName)
      (Git.sameWorktrees_pushDelete provider.tree repoPath) result
  have ends : ∃ later next, (deleteBranches provider outside repoPath options result).run world =
      .ok later next ∧ later.worktreeRemoved = result.worktreeRemoved := by
    rw [deleteBranches]
    split
    · exact ⟨_, _, rfl, rfl⟩
    · next branchName _ =>
        rcases deleteBranchTracked_run provider outside repoPath branchName result world with
          ⟨middle, between, deleted, same⟩
        rw [bind_of_ok deleted]
        split
        · rcases deleteRemoteBranchTracked_run provider outside repoPath branchName middle
            between with ⟨later, next, pushed, kept⟩
          exact ⟨later, next, pushed, kept.trans same⟩
        · exact ⟨middle, between, rfl, same⟩
  rcases ends with ⟨later, next, ran, same⟩
  exact ⟨later, next, ran, same, leads.of_ok ran⟩

/-! ## Pruning -/

def pruned (repoPath : Path) (world : World Location) : World Location :=
  ((execFileAsync 15000 (outside.git .prune)
    ["-C".toList, repoPath, "worktree".toList, "prune".toList]
    (Git.worktreePrune provider.tree repoPath)).run world).final

variable {provider : WorktreeProvider Location} {outside : Outside}

theorem pruned_of_prunes (prunes : Prunes outside) (repoPath : Path) (world : World Location) :
    pruned provider outside repoPath world =
      (Git.worktreePrune provider.tree repoPath world).final := by
  rw [pruned, execFileAsync]
  cases fault : outside.git .prune with
  | some fault' =>
      dsimp only
      rw [prunes fault' fault, if_pos rfl]
      rfl
  | none =>
      dsimp only
      split
      next answer => rw [answer, Outcome.final_ok, Outcome.final_ok]
      next answer => rw [answer, Outcome.final_error, Outcome.final_error]

theorem pruned_of_not_prunes (fails : ¬Prunes outside) (repoPath : Path) (world : World Location) :
    pruned provider outside repoPath world = world := by
  rw [pruned, execFileAsync]
  cases fault : outside.git .prune with
  | some fault' =>
      dsimp only
      rw [if_neg, Outcome.final_error]
      intro acted
      apply fails
      intro other same
      rw [fault] at same
      cases same
      exact acted
  | none =>
      exfalso
      apply fails
      intro other same
      rw [fault] at same
      cases same

theorem directories_pruned (repoPath : Path) (world : World Location) :
    (pruned provider outside repoPath world).directories = world.directories :=
  leads_execFileAsync (Git.sameDirectories_worktreePrune provider.tree repoPath) _ _ _ world

theorem exists_pruned {repoPath : Path} {world : World Location} {location : Location}
    {repository : Repository Location}
    (found : world.repositoryAt provider.tree repoPath = some (location, repository)) :
    ∃ remaining, (pruned provider outside repoPath world).repositoryAt provider.tree repoPath =
        some (location, remaining) ∧ remaining.head = repository.head ∧
      ∀ worktree, worktree ∈ remaining.worktrees ↔ worktree ∈ repository.worktrees ∧
        (worktree.locked = true ∨ world.hasEntry worktree.location = true ∨ ¬Prunes outside) := by
  by_cases prunes : Prunes outside
  · have kept := Git.repositoryAt_setRepository
      { repository with
        worktrees := repository.worktrees.filter fun worktree =>
          worktree.locked || world.hasEntry worktree.location } found
    rw [pruned_of_prunes prunes, Git.worktreePrune, Git.inRepository_of_some _ found,
      Outcome.final_ok]
    refine ⟨_, kept, rfl, ?_⟩
    intro worktree
    simp [prunes]
  · rw [pruned_of_not_prunes prunes]
    refine ⟨repository, found, rfl, ?_⟩
    intro worktree
    simp [prunes]

variable {repoPath : Path}

variable {world : World Location}

theorem repositoryAt_pruned_of_none (missing : world.repositoryAt provider.tree repoPath = none) :
    (pruned provider outside repoPath world).repositoryAt provider.tree repoPath = none := by
  by_cases prunes : Prunes outside
  · rcases Git.inRepository_of_none
      (fun location repository world => .ok () (world.setRepository location
        { repository with
          worktrees := repository.worktrees.filter fun worktree =>
            worktree.locked || world.hasEntry worktree.location })) missing with
      ⟨refusal, refused⟩
    rw [pruned_of_prunes prunes, Git.worktreePrune, refused, Outcome.final_error, missing]
  · rw [pruned_of_not_prunes prunes, missing]

theorem listed_pruned_iff {target : Location} :
    Listed provider.tree repoPath target (pruned provider outside repoPath world) ↔
      ∃ location repository,
        world.repositoryAt provider.tree repoPath = some (location, repository) ∧
        ∃ branch, SurvivesPruning outside world target location repository branch := by
  cases found : world.repositoryAt provider.tree repoPath with
  | none =>
      refine iff_of_false ?_ (by simp)
      rintro ⟨location, repository, missing, -⟩
      rw [repositoryAt_pruned_of_none found] at missing
      cases missing
  | some pair =>
      rcases pair with ⟨location, repository⟩
      rcases @exists_pruned _ _ provider outside _ _ _ _ found with ⟨remaining, known, head, kept⟩
      constructor
      · rintro ⟨other, listed, same, entry⟩
        rw [known] at same
        cases same
        refine ⟨location, repository, rfl, ?_⟩
        rcases entry with ⟨main, there⟩ | ⟨worktree, member, here⟩
        · rw [directories_pruned] at there
          exact ⟨repository.head, .inl ⟨main, there, rfl⟩⟩
        · rcases (kept worktree).mp member with ⟨before, stays⟩
          rw [here] at stays
          exact ⟨worktree.branch, .inr ⟨worktree, before, here, rfl, stays⟩⟩
      · rintro ⟨other, listed, same, branch, survives⟩
        cases same
        refine ⟨location, remaining, known, ?_⟩
        rcases survives with ⟨main, there, -⟩ | ⟨worktree, member, here, -, stays⟩
        · rw [← @directories_pruned _ _ provider outside repoPath] at there
          exact .inl ⟨main, there⟩
        · rw [← here] at stays
          exact .inr ⟨worktree, (kept worktree).mpr ⟨member, stays⟩, here⟩

/-! ## Reading the list again -/

def Shown (tree : FileTree Location) (target : Location) (branch : BranchName) : Prop :=
  tree.spell target ≠ [] ∧ listedName branch ≠ []

variable {tree : FileTree Location}

omit [DecidableEq Location] in
theorem exists_mem_listing_iff {target : Location} {repository : Repository Location} :
    (∃ info ∈ repository.listing tree location, tree.locate info.path = target) ↔
      ∃ branch, Shown tree target branch ∧
        ((target = location ∧ repository.head = some branch) ∨
          ∃ worktree ∈ repository.worktrees, worktree.location = target ∧
            worktree.branch = some branch) := by
  constructor
  · rintro ⟨info, read, here⟩
    rw [Repository.listing] at read
    rcases List.mem_filter.mp read with ⟨entry, shown⟩
    rcases List.mem_filterMap.mp entry with ⟨checkout, listed, given⟩
    rcases Option.map_eq_some_iff.mp given with ⟨branch, named, rfl⟩
    rw [tree.locate_spell] at here
    subst here
    refine ⟨branch, by simpa [Shown] using shown, ?_⟩
    rcases List.mem_cons.mp listed with rfl | listed
    · exact .inl ⟨rfl, named⟩
    · rcases List.mem_map.mp listed with ⟨worktree, member, rfl⟩
      exact .inr ⟨worktree, member, rfl, named⟩
  · rintro ⟨branch, shown, checkout⟩
    refine ⟨⟨tree.spell target, listedName branch⟩, ?_, tree.locate_spell target⟩
    rw [Repository.listing]
    apply List.mem_filter.mpr
    refine ⟨List.mem_filterMap.mpr ⟨(target, some branch), ?_, rfl⟩, by simpa [Shown] using shown⟩
    rcases checkout with ⟨rfl, head⟩ | ⟨worktree, member, here, named⟩
    · rw [head]
      exact List.mem_cons_self
    · apply List.mem_cons_of_mem
      exact List.mem_map.mpr ⟨worktree, member, by rw [here, named]⟩

omit [DecidableEq Location] in
theorem listWorktrees_of_found {repository : Repository Location}
    (found : world.repositoryAt tree repoPath = some (location, repository)) :
    listWorktrees tree none repoPath world = .ok (repository.listing tree location) := by
  rcases World.repositoryAt_eq_some.mp found with ⟨directory, there, owner, known⟩
  unfold listWorktrees
  rw [Git.inRepository_of_some _ found]
  simp [there, owner, known]

omit [DecidableEq Location] in
theorem listWorktrees_of_not_found {fault : Option Fault} {worktrees : List WorktreeInfo}
    (unanswered : fault ≠ none ∨ world.repositoryAt tree repoPath = none)
    (listed : listWorktrees tree fault repoPath world = .ok worktrees) : worktrees = [] := by
  have failing : ∃ message : List Char, listWorktrees tree fault repoPath world =
      if Text.occurs "No such file or directory".toList message then .ok []
      else if Text.occurs "not a git repository".toList message then .ok []
      else .error (processError ("Failed to list worktrees for ".toList ++ repoPath ++
        ": ".toList ++ message)) := by
    unfold listWorktrees
    cases fault with
    | some fault => exact ⟨_, rfl⟩
    | none =>
        have missing := unanswered.resolve_left (fun present => present rfl)
        rcases Git.inRepository_of_none (fun _ _ world => .ok () world) missing with
          ⟨refusal, refused⟩
        rw [refused]
        exact ⟨_, rfl⟩
  rcases failing with ⟨message, failed⟩
  rw [failed] at listed
  split at listed
  · cases listed
    rfl
  · split at listed
    · cases listed
      rfl
    · cases listed

/-- The verification finds an entry whose directory is there, among those it reads. -/
theorem isWorktreeRegistered_iff {path : Path} :
    isWorktreeRegistered provider outside repoPath path world = true ↔
      repoPath ≠ [] ∧ outside.git .listRemaining = none ∧
        (world.directories (provider.tree.locate path)).isSome = true ∧
        ∃ location repository,
          world.repositoryAt provider.tree repoPath = some (location, repository) ∧
          ∃ info ∈ repository.listing provider.tree location,
            provider.tree.locate info.path = provider.tree.locate path := by
  rw [isWorktreeRegistered]
  by_cases empty : repoPath = []
  · rw [toRepoPath, if_pos empty]
    exact iff_of_false Bool.false_ne_true fun all => all.1 empty
  · rw [toRepoPath, if_neg empty]
    dsimp only
    by_cases answered : outside.git .listRemaining = none ∧
        ∃ pair, world.repositoryAt provider.tree repoPath = some pair
    · rcases answered with ⟨unfaulted, ⟨location, repository⟩, found⟩
      rw [unfaulted, listWorktrees_of_found found]
      dsimp only
      rw [List.any_eq_true]
      constructor
      · rintro ⟨info, member, same⟩
        rcases Bool.and_eq_true_iff.mp same with ⟨there, same⟩
        have equal := of_decide_eq_true same
        rw [resolvedPath, if_pos there, resolvedPath] at equal
        split at equal
        · next present =>
            exact ⟨empty, rfl, present, location, repository, found, info, member,
              Sum.inl.inj equal⟩
        · cases equal
      · rintro ⟨-, -, there, other, listed, same, info, member, here⟩
        rw [found] at same
        cases same
        refine ⟨info, member, ?_⟩
        rw [resolvedPath, resolvedPath, here, there]
        simp
    · refine iff_of_false ?_ ?_
      · have unanswered : outside.git .listRemaining ≠ none ∨
            world.repositoryAt provider.tree repoPath = none := by
          by_contra both
          rcases not_or.mp both with ⟨unfaulted, found⟩
          exact answered ⟨not_not.mp unfaulted, Option.ne_none_iff_exists'.mp found⟩
        split
        · exact Bool.false_ne_true
        next worktrees listed =>
          rw [listWorktrees_of_not_found unanswered listed]
          exact Bool.false_ne_true
      · rintro ⟨-, unfaulted, -, location, repository, found, -⟩
        exact answered ⟨unfaulted, _, found⟩

/-! ## Overlooked entries -/

section

variable (provider : WorktreeProvider Location) (outside : Outside)

/-- The verification reads a checkout in the place from the list and finds it there. -/
def Noticed (repoPath path : Path) (world : World Location) (location : Location)
    (repository : Repository Location) : Prop :=
  repoPath ≠ [] ∧ outside.git .listRemaining = none ∧
    (world.directories (provider.tree.locate path)).isSome = true ∧
    ∃ branch, Shown provider.tree (provider.tree.locate path) branch ∧
      SurvivesPruning outside world (provider.tree.locate path) location repository (some branch)

def Overlooked (repoPath path : Path) (world : World Location) : Prop :=
  ∃ location repository,
    world.repositoryAt provider.tree repoPath = some (location, repository) ∧
    (∃ branch,
      SurvivesPruning outside world (provider.tree.locate path) location repository branch) ∧
    ¬Noticed provider outside repoPath path world location repository

end

theorem isWorktreeRegistered_pruned_iff {path : Path} {world : World Location}
    {repository : Repository Location}
    (found : world.repositoryAt provider.tree repoPath = some (location, repository)) :
    isWorktreeRegistered provider outside repoPath path (pruned provider outside repoPath world) =
        true ↔
      Noticed provider outside repoPath path world location repository := by
  rcases @exists_pruned _ _ provider outside _ _ _ _ found with ⟨remaining, known, head, kept⟩
  rw [isWorktreeRegistered_iff, Noticed, directories_pruned]
  refine and_congr_right fun _ => and_congr_right fun _ => and_congr_right fun there => ?_
  constructor
  · rintro ⟨other, listed, same, read⟩
    rw [known] at same
    cases same
    rcases exists_mem_listing_iff.mp read with ⟨branch, shown, checkout⟩
    refine ⟨branch, shown, ?_⟩
    rcases checkout with ⟨main, named⟩ | ⟨worktree, member, here, named⟩
    · exact .inl ⟨main, there, by rw [← named, head]⟩
    · rcases (kept worktree).mp member with ⟨before, stays⟩
      rw [here] at stays
      exact .inr ⟨worktree, before, here, named, stays⟩
  · rintro ⟨branch, shown, survives⟩
    refine ⟨location, remaining, known, exists_mem_listing_iff.mpr ⟨branch, shown, ?_⟩⟩
    rcases survives with ⟨main, -, named⟩ | ⟨worktree, member, here, named, stays⟩
    · exact .inl ⟨main, by rw [head, named]⟩
    · rw [← here] at stays
      exact .inr ⟨worktree, (kept worktree).mpr ⟨member, stays⟩, here, named⟩

theorem overlooked_iff {path : Path} {world : World Location} :
    Overlooked provider outside repoPath path world ↔
      Listed provider.tree repoPath (provider.tree.locate path)
          (pruned provider outside repoPath world) ∧
        isWorktreeRegistered provider outside repoPath path
          (pruned provider outside repoPath world) = false := by
  rw [listed_pruned_iff]
  constructor
  · rintro ⟨location, repository, found, survives, unnoticed⟩
    refine ⟨⟨location, repository, found, survives⟩, ?_⟩
    rw [← isWorktreeRegistered_pruned_iff found] at unnoticed
    exact Bool.eq_false_iff.mpr unnoticed
  · rintro ⟨⟨location, repository, found, survives⟩, unregistered⟩
    refine ⟨location, repository, found, survives, ?_⟩
    rw [← isWorktreeRegistered_pruned_iff found, unregistered]
    exact Bool.false_ne_true

theorem onward_run (repoPath path : Path) (options : DestroyOptions) {result : DestroyResult}
    (world : World Location) (removed : result.worktreeRemoved = true) :
    ∃ later next, (do
        let result ← pruneAndVerify provider outside repoPath path result
        deleteBranches provider outside repoPath options result).run world = .ok later next ∧
      later.worktreeRemoved = !isWorktreeRegistered provider outside repoPath path
        (pruned provider outside repoPath world) ∧
      SameWorktrees (pruned provider outside repoPath world) next := by
  have verified : ∃ middle, (pruneAndVerify provider outside repoPath path result).run world =
      .ok middle (pruned provider outside repoPath world) ∧
      middle.worktreeRemoved = !isWorktreeRegistered provider outside repoPath path
        (pruned provider outside repoPath world) := by
    rw [pruneAndVerify]
    dsimp only
    rw [← pruned, removed, Bool.true_and]
    split
    · next registered =>
        refine ⟨_, rfl, ?_⟩
        rw [registered]
        rfl
    · next unregistered =>
        refine ⟨_, rfl, ?_⟩
        rw [removed, Bool.eq_false_iff.mpr unregistered]
        rfl
  rcases verified with ⟨middle, ran, registered⟩
  rw [bind_of_ok ran]
  rcases deleteBranches_run provider outside repoPath options middle
    (pruned provider outside repoPath world) with ⟨later, next, deleted, same, worktrees⟩
  exact ⟨later, next, deleted, same.trans registered, worktrees⟩

/-! ## How destroying comes to pruning -/

section

variable (provider : WorktreeProvider Location) (outside : Outside) (path : Path)
  (options : DestroyOptions) (world : World Location)

structure RefusedAsMissing (repoPath : Path) : Prop where
  checked : outside.file .path = none
  there : (world.directories (provider.tree.locate path)).isSome = true
  repository : repoPathOf provider outside path options world = .ok repoPath
  refused : ∃ message, (gitWorktreeRemove provider outside repoPath path options.force).run world =
    .error message world ∧ isWorktreeMissingError message = true
  rechecked : outside.file .remaining = none

inductive LeftBehind : Path → World Location → Prop
  /-- There has been no directory. -/
  | gone {repoPath : Path} (checked : outside.file .path = none)
      (gone : world.directories (provider.tree.locate path) = none)
      (given : options.canonicalRepoPath = some repoPath) : LeftBehind repoPath world
  /-- The directory is deleted without git. -/
  | deleted {repoPath : Path}
      (refused : RefusedAsMissing provider outside path options world repoPath)
      (deletes : ∀ error, outside.file .removeRemaining = some error → error.acted = true) :
      LeftBehind repoPath (world.removeTree provider.tree (provider.tree.locate path))
  /-- The directory cannot be deleted. -/
  | kept {repoPath : Path} {error : IoError}
      (refused : RefusedAsMissing provider outside path options world repoPath)
      (fails : outside.file .removeRemaining = some error) (idle : error.acted = false) :
      LeftBehind repoPath world

/-- The repository of an environment: the one that is given, or else the one that its
directory points to. If neither is there, it may be any. -/
def IsRepositoryOf (repoPath : Path) : Prop :=
  match options.canonicalRepoPath with
  | some given => repoPath = given
  | none => (world.directories (provider.tree.locate path)).isSome = true →
      getCanonicalRepoPath provider outside path world = .ok repoPath

def Verified : Prop :=
  ∀ result final, (destroy provider outside path options).run world = .ok result final →
    result.worktreeRemoved = true →
    ∀ repoPath, IsRepositoryOf provider outside path options world repoPath →
      ¬Listed provider.tree repoPath (provider.tree.locate path) final

inductive Escapes : Prop
  /-- The directory is gone, and nobody says which repository has the entry. -/
  | unverified (checked : outside.file .path = none)
      (gone : world.directories (provider.tree.locate path) = none)
      (unknown : options.canonicalRepoPath = none) {repoPath : Path}
      (listed : Listed provider.tree repoPath (provider.tree.locate path) world)
  | overlooked {repoPath : Path} {between : World Location}
      (left : LeftBehind provider outside path options world repoPath between)
      (overlooked : Overlooked provider outside repoPath path between)

end

section

variable {path : Path} {options : DestroyOptions} {world : World Location}

omit [DecidableEq Location] in
theorem isRepositoryOf_iff_of_there {other : Path}
    (there : (world.directories (provider.tree.locate path)).isSome = true)
    (found : repoPathOf provider outside path options world = .ok repoPath) :
    IsRepositoryOf provider outside path options world other ↔ other = repoPath := by
  rw [repoPathOf] at found
  rw [IsRepositoryOf]
  cases given : options.canonicalRepoPath with
  | some own =>
      rw [given] at found
      cases found
      rfl
  | none =>
      rw [given] at found
      dsimp only at found ⊢
      rw [found]
      constructor
      · intro own
        exact (Except.ok.inj (own there)).symm
      · intro same _
        rw [same]

/-- Git removes the worktree, or says that it does not; a failure from outside may come
after the removal. -/
theorem gitWorktreeRemove_cases (repoPath : Path) (force : Option Bool) :
    (∃ message, (gitWorktreeRemove provider outside repoPath path force).run world =
      .error message world) ∨
      ∃ location repository,
        world.repositoryAt provider.tree repoPath = some (location, repository) ∧
        ((gitWorktreeRemove provider outside repoPath path force).run world).final =
          Git.withoutWorktree provider.tree (provider.tree.locate path) location repository
            world := by
  rw [gitWorktreeRemove, git]
  rcases Git.worktreeRemove_eq provider.tree repoPath path (force = some true) world with
    ⟨refusal, refused⟩ | ⟨location, repository, found, removed⟩
  · exact .inl (execFileAsync_of_refused refused _ _ _)
  · cases ran : (execFileAsync gitOperationTimeoutMs (outside.git .remove)
        ("-C".toList :: repoPath :: (["worktree".toList, "remove".toList] ++
          (if force = some true then ["--force".toList] else []) ++ [path]))
        (Git.worktreeRemove provider.tree repoPath path (force = some true))).run world with
    | ok _ next =>
        have answer := (execFileAsync_eq_ok.mp ran).2
        rw [removed] at answer
        cases answer
        exact .inr ⟨location, repository, found, rfl⟩
    | error message next =>
        rcases execFileAsync_eq_error ran with ⟨-, refusal, refused⟩ | ⟨failure, -, answer⟩
        · rw [removed] at refused
          cases refused
        · rw [removed, Outcome.final_ok] at answer
          split at answer
          · exact .inr ⟨location, repository, found, answer⟩
          · rw [answer]
            exact .inl ⟨message, rfl⟩

theorem not_listed_withoutWorktree {repository : Repository Location}
    (found : world.repositoryAt provider.tree repoPath = some (location, repository)) :
    ¬Listed provider.tree repoPath (provider.tree.locate path)
      (pruned provider outside repoPath
        (Git.withoutWorktree provider.tree (provider.tree.locate path) location repository
          world)) := by
  rw [listed_pruned_iff]
  have gone : (Git.withoutWorktree provider.tree (provider.tree.locate path) location repository
      world).directories (provider.tree.locate path) = none := by
    simp [Git.withoutWorktree, World.setRepository, World.removeTree, provider.tree.within_self]
  rintro ⟨other, remaining, known, branch, ⟨-, there, -⟩ | ⟨worktree, member, here, -⟩⟩
  · rw [gone] at there
    cases there
  · rcases World.repositoryAt_eq_some_iff.mp found with ⟨owner, before⟩
    rcases World.repositoryAt_eq_some_iff.mp known with ⟨ownerAfter, after⟩
    have same : other = location := by
      have later : (world.removeTree provider.tree (provider.tree.locate path)).ownerAt
          (provider.tree.locate repoPath) = some other := ownerAfter
      have earlier := (destroyed_removeTree provider.tree repoPath (provider.tree.locate path)
        none world).owners _ _ later
      rw [owner] at earlier
      exact (Option.some.inj earlier).symm
    subst same
    rw [Git.withoutWorktree, World.setRepository] at after
    dsimp only at after
    rw [if_pos rfl] at after
    cases after
    have different := (List.mem_filter.mp member).2
    simp [here] at different

omit [DecidableEq Location] in
theorem removeRemaining_run (result : DestroyResult)
    (there : (world.directories (provider.tree.locate path)).isSome = true) :
    ∃ later, later.worktreeRemoved = result.worktreeRemoved ∧
      (((∀ error, outside.file .removeRemaining = some error → error.acted = true) ∧
        (removeRemaining provider outside path result).run world =
          .ok later (world.removeTree provider.tree (provider.tree.locate path))) ∨
      ((∃ error, outside.file .removeRemaining = some error ∧ error.acted = false) ∧
        (removeRemaining provider outside path result).run world = .ok later world)) := by
  rw [removeRemaining]
  cases fault : outside.file .removeRemaining with
  | none =>
      have ran : (removeDirAll provider.tree none path).run world =
          .ok () (world.removeTree provider.tree (provider.tree.locate path)) := by
        simp only [removeDirAll, there, if_true]
      simp only [ran]
      refine ⟨_, ?_, .inl ⟨by simp, rfl⟩⟩
      rfl
  | some error =>
      cases acted : error.acted with
      | true =>
          have ran : (removeDirAll provider.tree (some error) path).run world =
              .error error.text (world.removeTree provider.tree (provider.tree.locate path)) := by
            simp only [removeDirAll, acted, if_true]
          simp only [ran]
          have deletes : ∀ other, some error = some other → other.acted = true := by
            intro other same
            rw [← Option.some.inj same, acted]
          refine ⟨_, ?_, .inl ⟨deletes, rfl⟩⟩
          rfl
      | false =>
          have ran : (removeDirAll provider.tree (some error) path).run world =
              .error error.text world := by
            simp only [removeDirAll, acted, Bool.false_eq_true, if_false]
          simp only [ran]
          refine ⟨_, ?_, .inr ⟨⟨error, rfl, acted⟩, rfl⟩⟩
          rfl

theorem removeWorktree_run_of_refused
    (refused : RefusedAsMissing provider outside path options world repoPath) :
    (removeWorktree provider outside repoPath path options.force {}).run world =
      (removeRemaining provider outside path { worktreeRemoved := true }).run world := by
  rcases refused.refused with ⟨message, answer, missing⟩
  have registered := removeRegistered_of_error answer
  rw [missing, if_pos rfl] at registered
  have remains := directoryExists_run provider.tree path world refused.rechecked
  rw [refused.there] at remains
  rw [removeWorktree, bind_of_ok registered]
  dsimp only
  rw [bind_of_ok remains, if_pos rfl]

variable {between : World Location}

theorem LeftBehind.run (left : LeftBehind provider outside path options world repoPath between) :
    ∃ result : DestroyResult, result.worktreeRemoved = true ∧
      (destroy provider outside path options).run world = (do
        let result ← pruneAndVerify provider outside repoPath path result
        deleteBranches provider outside repoPath options result).run between := by
  have onward : ∀ {repoPath : Path} {between : World Location} {later : DestroyResult},
      RefusedAsMissing provider outside path options world repoPath →
      (removeRemaining provider outside path { worktreeRemoved := true }).run world =
        .ok later between →
      (destroy provider outside path options).run world = (do
        let result ← pruneAndVerify provider outside repoPath path later
        deleteBranches provider outside repoPath options result).run between := by
    intro repoPath between later refused ran
    rcases Option.isSome_iff_exists.mp refused.there with ⟨directory, there⟩
    rw [← removeWorktree_run_of_refused refused] at ran
    rw [destroy_run_of_there options refused.checked there, refused.repository]
    dsimp only
    rw [destroyIn, bind_of_ok ran]
  cases left with
  | gone checked gone given =>
      have absent := directoryExists_run provider.tree path world checked
      rw [gone, Option.isSome_none] at absent
      refine ⟨{ worktreeRemoved := true, directoryClean := true }, rfl, ?_⟩
      rw [destroy, bind_of_ok absent, destroyRepoPath, given]
      rfl
  | deleted refused deletes =>
      rcases @removeRemaining_run _ provider outside path _ { worktreeRemoved := true }
        refused.there with ⟨later, removed, ⟨-, ran⟩ | ⟨⟨error, fails, idle⟩, -⟩⟩
      · exact ⟨later, removed, onward refused ran⟩
      · rw [deletes error fails] at idle
        cases idle
  | @kept error refused fails idle =>
      rcases @removeRemaining_run _ provider outside path _ { worktreeRemoved := true }
        refused.there with ⟨later, removed, ⟨deletes, -⟩ | ⟨-, ran⟩⟩
      · rw [deletes error fails] at idle
        cases idle
      · exact ⟨later, removed, onward refused ran⟩

theorem LeftBehind.isRepositoryOf_iff {other : Path}
    (left : LeftBehind provider outside path options world repoPath between) :
    IsRepositoryOf provider outside path options world other ↔ other = repoPath := by
  cases left with
  | gone _ _ given => rw [IsRepositoryOf, given]
  | deleted refused _ => exact isRepositoryOf_iff_of_there refused.there refused.repository
  | kept refused _ _ => exact isRepositoryOf_iff_of_there refused.there refused.repository

theorem not_verified_of_escapes
    (escapes : Escapes provider outside path options world) :
    ¬Verified provider outside path options world := by
  intro verified
  cases escapes with
  | unverified checked gone unknown listed =>
      have absent := directoryExists_run provider.tree path world checked
      rw [gone, Option.isSome_none] at absent
      have ends : ∃ result : DestroyResult, result.worktreeRemoved = true ∧
          (destroy provider outside path options).run world = .ok result world := by
        rw [destroy, bind_of_ok absent, destroyRepoPath, unknown]
        cases options.branchName with
        | none => exact ⟨_, rfl, rfl⟩
        | some branchName => exact ⟨_, rfl, rfl⟩
      rcases ends with ⟨result, removed, ran⟩
      refine verified result world ran removed _ ?_ listed
      rw [IsRepositoryOf, unknown]
      dsimp only
      intro there
      rw [gone] at there
      cases there
  | overlooked left overlooked =>
      rcases overlooked_iff.mp overlooked with ⟨listed, unregistered⟩
      rcases left.run with ⟨result, removed, ran⟩
      rcases @onward_run _ _ provider outside _ path options _ _ removed with
        ⟨later, next, ends, reported, same⟩
      rw [unregistered] at reported
      exact verified later next (ran.trans ends) reported _ (left.isRepositoryOf_iff.mpr rfl)
        (same.listed_iff.mpr listed)

variable {final : World Location} {result : DestroyResult}

theorem LeftBehind.overlooked_of_listed
    (left : LeftBehind provider outside path options world repoPath between)
    (ran : (destroy provider outside path options).run world = .ok result final)
    (reported : result.worktreeRemoved = true)
    (listed : Listed provider.tree repoPath (provider.tree.locate path) final) :
    Overlooked provider outside repoPath path between := by
  rcases left.run with ⟨start, removed, onward⟩
  rcases @onward_run _ _ provider outside repoPath path options _ between removed with
    ⟨later, next, ends, verified, same⟩
  rw [onward, ends] at ran
  cases ran
  rw [reported] at verified
  apply overlooked_iff.mpr
  exact ⟨same.listed_iff.mp listed, Bool.not_eq_true' _ |>.mp verified.symm⟩

theorem refusedAsMissing_of_ok (checked : outside.file .path = none)
    (there : (world.directories (provider.tree.locate path)).isSome = true)
    (found : repoPathOf provider outside path options world = .ok repoPath)
    (answer : (gitWorktreeRemove provider outside repoPath path options.force).run world =
      .error message world)
    (ran : (removeWorktree provider outside repoPath path options.force {}).run world =
      .ok result final) : RefusedAsMissing provider outside path options world repoPath := by
  rw [removeWorktree] at ran
  rcases bind_eq_ok.mp ran with ⟨_, between, registered, onward⟩
  rw [removeRegistered_of_error answer] at registered
  split at registered
  next missing =>
    cases registered
    rcases bind_eq_ok.mp onward with ⟨_, _, rechecking, -⟩
    refine ⟨checked, there, found, ⟨message, answer, missing⟩, ?_⟩
    by_contra failing
    rcases directoryExists_run_of_error provider.tree path world failing with ⟨failure, failed⟩
    rw [failed] at rechecking
    cases rechecking
  next => cases registered

theorem removeWorktree_ok_of_removed {repository : Repository Location}
    (removes : ((gitWorktreeRemove provider outside repoPath path force).run world).final =
      Git.withoutWorktree provider.tree (provider.tree.locate path) location repository world)
    (ran : (removeWorktree provider outside repoPath path force {}).run world = .ok result final) :
    result.worktreeRemoved = true ∧ final =
      Git.withoutWorktree provider.tree (provider.tree.locate path) location repository
        world := by
  have gone : (Git.withoutWorktree provider.tree (provider.tree.locate path) location repository
      world).directories (provider.tree.locate path) = none := by
    simp [Git.withoutWorktree, World.setRepository, World.removeTree, provider.tree.within_self]
  rw [removeWorktree] at ran
  rcases bind_eq_ok.mp ran with ⟨_, between, registered, onward⟩
  have same : between = Git.withoutWorktree provider.tree (provider.tree.locate path) location
      repository world := by
    rw [← removes]
    rw [removeRegistered] at registered
    dsimp only at registered
    split at registered
    next answer =>
      cases registered
      rw [answer, Outcome.final_ok]
    next answer =>
      split at registered
      · cases registered
        rw [answer, Outcome.final_error]
      · cases registered
  subst same
  rcases bind_eq_ok.mp onward with ⟨present, _, rechecking, ends⟩
  cases rechecked : outside.file .remaining with
  | some error =>
      rw [rechecked] at rechecking
      cases rechecking
  | none =>
      rw [directoryExists_run provider.tree path _ rechecked, gone] at rechecking
      cases rechecking
      cases ends
      exact ⟨rfl, rfl⟩

theorem verified_of_not_escapes
    (kept : ¬Escapes provider outside path options world) :
    Verified provider outside path options world := by
  intro result final ran reported repoPath own listed
  cases checked : outside.file .path with
  | some error =>
      rcases directoryExists_run_of_error provider.tree path world
        (Option.some_ne_none error) with ⟨failure, failed⟩
      rw [← checked] at failed
      rw [destroy, bind_of_error failed] at ran
      cases ran
  | none =>
      have sees := directoryExists_run provider.tree path world checked
      cases there : world.directories (provider.tree.locate path) with
      | none =>
          rw [there, Option.isSome_none] at sees
          cases given : options.canonicalRepoPath with
          | some repository =>
              have left := LeftBehind.gone checked there given
              rw [left.isRepositoryOf_iff.mp own] at listed
              exact kept (.overlooked left (left.overlooked_of_listed ran reported listed))
          | none =>
              rw [destroy, bind_of_ok sees, destroyRepoPath, given] at ran
              have same : final = world := by
                cases named : options.branchName with
                | none =>
                    rw [named] at ran
                    cases ran
                    rfl
                | some branchName =>
                    rw [named] at ran
                    cases ran
                    rfl
              rw [same] at listed
              exact kept (.unverified checked there given listed)
      | some directory =>
          have present : (world.directories (provider.tree.locate path)).isSome = true := by
            rw [there]
            rfl
          have onward := ran
          rw [destroy_run_of_there options checked there] at onward
          cases found : repoPathOf provider outside path options world with
          | error error =>
              rw [found] at onward
              cases onward
          | ok repository =>
              rw [(isRepositoryOf_iff_of_there present found).mp own] at listed
              rw [found] at onward
              dsimp only at onward
              rw [destroyIn] at onward
              rcases bind_eq_ok.mp onward with ⟨middle, between, removing, onward⟩
              rcases @gitWorktreeRemove_cases _ _ provider outside path world repository
                options.force with ⟨message, answer⟩ | ⟨location, known, registered, removes⟩
              · have refused := refusedAsMissing_of_ok checked present found answer removing
                rcases @removeRemaining_run _ provider outside path _ { worktreeRemoved := true }
                  present with ⟨later, -, ⟨deletes, -⟩ | ⟨⟨error, fails, idle⟩, -⟩⟩
                · have left := LeftBehind.deleted refused deletes
                  exact kept (.overlooked left (left.overlooked_of_listed ran reported listed))
                · have left := LeftBehind.kept refused fails idle
                  exact kept (.overlooked left (left.overlooked_of_listed ran reported listed))
              · rcases removeWorktree_ok_of_removed removes removing with ⟨removed, rfl⟩
                rcases @onward_run _ _ provider outside repository path options _
                  (Git.withoutWorktree provider.tree (provider.tree.locate path) location known
                    world) removed with ⟨later, next, ends, -, same⟩
                rw [ends] at onward
                cases onward
                exact not_listed_withoutWorktree registered (same.listed_iff.mp listed)

end

end WorktreeProvider

open WorktreeProvider

/-- A removal that is reported is real unless an entry escapes the verification. -/
theorem destroy_verified_iff (provider : WorktreeProvider Location) (outside : Outside)
    (path : Path) (options : DestroyOptions) (world : World Location) :
    Verified provider outside path options world ↔
      ¬Escapes provider outside path options world := by
  constructor
  · intro verified escapes
    exact not_verified_of_escapes escapes verified
  · exact verified_of_not_escapes

namespace RemovalVerification

def lockedWorktree : Worktree Path where
  location := "/mnt/drive/x".toList
  branch := some "topic".toList
  locked := true

def repository : Repository Path where
  head := some "main".toList
  branches := ["main".toList, "topic".toList]
  worktrees := [lockedWorktree]

def world : World Path where
  directories := fun path =>
    if path = "/srv/app".toList then
      some { entry := some .checkout, repository := some "/srv/app".toList }
    else none
  repositories := fun path => if path = "/srv/app".toList then some repository else none

end RemovalVerification

/-- Pruning leaves a locked entry, and its directory is not found. -/
theorem not_verified_locked :
    ¬∀ (provider : WorktreeProvider Path) (outside : Outside) (path : Path)
      (options : DestroyOptions) (world : World Path),
      Verified provider outside path options world := by
  intro always
  have left : LeftBehind UnforcedDestroy.provider UnforcedDestroy.outside
      "/mnt/drive/x".toList UnforcedDestroy.options RemovalVerification.world
      "/srv/app".toList RemovalVerification.world :=
    .gone rfl (by decide) rfl
  have overlooked : Overlooked UnforcedDestroy.provider UnforcedDestroy.outside
      "/srv/app".toList "/mnt/drive/x".toList RemovalVerification.world := by
    refine ⟨"/srv/app".toList, RemovalVerification.repository, rfl, ?_, ?_⟩
    · exact ⟨some "topic".toList, .inr
        ⟨RemovalVerification.lockedWorktree, List.mem_singleton.mpr rfl, rfl, rfl, .inl rfl⟩⟩
    · rintro ⟨-, -, there, -⟩
      exact absurd there (by decide)
  exact not_verified_of_escapes (.overlooked left overlooked)
    (always UnforcedDestroy.provider UnforcedDestroy.outside _ UnforcedDestroy.options _)

end HarnessAgent
