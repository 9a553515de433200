import HarnessAgent.Isolation.PlacedWorktree

/-! # What destroying leaves alone

Destroying removes what is in one place and at most one branch. A branch that is
checked out in a worktree that stays is not removed either.
-/

namespace HarnessAgent

open LexicalPath StatefulRun

section

variable {Location : Type}

/-- A worktree that destroying another place does not make git forget. -/
def Steady (tree : FileTree Location) (target : Location) (world : World Location)
    (worktree : Worktree Location) : Prop :=
  worktree.location ≠ target ∧
    (worktree.locked = true ∨
      (tree.within worktree.location target = false ∧ world.hasEntry worktree.location = true))

def Firm (tree : FileTree Location) (target : Location) (world : World Location)
    (location : Location) (name : BranchName) : Prop :=
  world.headOf location = some name ∨
    ∃ worktree ∈ world.worktreesOf location,
      worktree.branch = some name ∧ Steady tree target world worktree

structure Destroyed (tree : FileTree Location) (repoPath : Path) (target : Location)
    (branch : Option BranchName) (before after : World Location) : Prop where
  owners : ∀ other location, after.ownerAt other = some location →
    before.ownerAt other = some location
  entries : ∀ other, tree.within other target = false →
    after.entryAt other = before.entryAt other
  heads : ∀ location, after.headOf location = before.headOf location
  worktrees : ∀ location, ∀ worktree ∈ before.worktreesOf location,
    Steady tree target before worktree → worktree ∈ after.worktreesOf location
  branches : ∀ location, ∀ name ∈ before.branchesOf location,
    before.ownerAt (tree.locate repoPath) ≠ some location ∨ branch ≠ some name ∨
      Firm tree target before location name →
    name ∈ after.branchesOf location

namespace Destroyed

variable {tree : FileTree Location} {repoPath : Path} {target : Location}
  {branch : Option BranchName} {before after : World Location}

theorem steady (destroyed : Destroyed tree repoPath target branch before after)
    (stays : Steady tree target before worktree) : Steady tree target after worktree := by
  rcases stays with ⟨elsewhere, locked | ⟨away, present⟩⟩
  · exact ⟨elsewhere, Or.inl locked⟩
  · refine ⟨elsewhere, Or.inr ⟨away, ?_⟩⟩
    rw [World.hasEntry_eq] at present ⊢
    rw [destroyed.entries _ away]
    exact present

theorem firm (destroyed : Destroyed tree repoPath target branch before after)
    (held : Firm tree target before location name) : Firm tree target after location name := by
  rcases held with head | ⟨worktree, member, has, stays⟩
  · exact Or.inl ((destroyed.heads location).trans head)
  · exact Or.inr ⟨worktree, destroyed.worktrees location worktree member stays, has,
      destroyed.steady stays⟩

end Destroyed

instance (tree : FileTree Location) (repoPath : Path) (target : Location)
    (branch : Option BranchName) : Std.Refl (Destroyed tree repoPath target branch) where
  refl _ :=
    ⟨fun _ _ owner => owner, fun _ _ => rfl, fun _ => rfl, fun _ _ member _ => member,
      fun _ _ member _ => member⟩

instance (tree : FileTree Location) (repoPath : Path) (target : Location)
    (branch : Option BranchName) :
    IsTrans (World Location) (Destroyed tree repoPath target branch) where
  trans _ _ _ first second :=
    { owners := fun other location owner =>
        first.owners other location (second.owners other location owner)
      entries := fun other away => (second.entries other away).trans (first.entries other away)
      heads := fun location => (second.heads location).trans (first.heads location)
      worktrees := fun location worktree member stays =>
        second.worktrees location worktree (first.worktrees location worktree member stays)
          (first.steady stays)
      branches := fun location name member kept =>
        second.branches location name (first.branches location name member kept)
          (kept.imp (fun elsewhere owner => elsewhere (first.owners _ _ owner))
            (Or.imp_right first.firm)) }

theorem destroyed_removeTree (tree : FileTree Location) (repoPath : Path) (target : Location)
    (branch : Option BranchName) (world : World Location) :
    Destroyed tree repoPath target branch world (world.removeTree tree target) where
  owners := fun other location owner => by
    rw [World.ownerAt, World.removeTree] at owner
    dsimp only at owner
    split at owner
    · cases owner
    · exact owner
  entries := fun other away => by simp [World.entryAt, World.removeTree, away]
  heads := fun _ => rfl
  worktrees := fun _ _ member _ => member
  branches := fun _ _ member _ => member

end

variable {Location : Type} [DecidableEq Location]

theorem destroyed_setRepository {tree : FileTree Location} {repoPath : Path} {target : Location}
    {branch : Option BranchName} {location : Location}
    (known : world.repositories location = some repository) (head : changed.head = repository.head)
    (worktrees : ∀ worktree ∈ repository.worktrees, Steady tree target world worktree →
      worktree ∈ changed.worktrees) (branches : ∀ name ∈ repository.branches,
      world.ownerAt (tree.locate repoPath) ≠ some location ∨ branch ≠ some name ∨
        Firm tree target world location name → name ∈ changed.branches) :
    Destroyed tree repoPath target branch world (world.setRepository location changed) where
  owners := fun _ _ owner => owner
  entries := fun _ _ => rfl
  heads := fun other => by
    by_cases same : other = location
    · simp [World.headOf, World.setRepository, same, known, head]
    · simp [World.headOf, World.setRepository, same]
  worktrees := fun other worktree member stays => by
    by_cases same : other = location
    · subst other
      simp only [World.worktreesOf, known, Option.map_some, Option.getD_some] at member
      simpa [World.worktreesOf, World.setRepository] using worktrees worktree member stays
    · simpa [World.worktreesOf, World.setRepository, same] using member
  branches := fun other name member kept => by
    by_cases same : other = location
    · subst other
      simp only [World.branchesOf, known, Option.map_some, Option.getD_some] at member
      simpa [World.branchesOf, World.setRepository] using branches name member kept
    · simpa [World.branchesOf, World.setRepository, same] using member

namespace Git

def withoutWorktree (tree : FileTree Location) (target location : Location)
    (repository : Repository Location) (world : World Location) : World Location :=
  (world.removeTree tree target).setRepository location
    { repository with worktrees := repository.worktrees.filter (·.location ≠ target) }

variable (tree : FileTree Location)

theorem worktreeRemove_eq (repoPath path : Path) (force : Bool)
    (world : World Location) :
    (∃ refusal, Git.worktreeRemove tree repoPath path force world = .error refusal world) ∨
      ∃ location repository, world.repositoryAt tree repoPath = some (location, repository) ∧
        Git.worktreeRemove tree repoPath path force world =
          .ok () (withoutWorktree tree (tree.locate path) location repository world) := by
  cases found : world.repositoryAt tree repoPath with
  | none => exact Or.inl (Git.inRepository_of_none _ found)
  | some pair =>
      rcases pair with ⟨location, repository⟩
      rw [Git.worktreeRemove, Git.inRepository_of_some _ found]
      dsimp only
      split
      · exact Or.inl ⟨_, rfl⟩
      · split
        · exact Or.inl ⟨_, rfl⟩
        · split
          · exact Or.inl ⟨_, rfl⟩
          · split
            · exact Or.inr ⟨location, repository, rfl, rfl⟩
            · split
              · exact Or.inl ⟨_, rfl⟩
              · split
                · exact Or.inl ⟨_, rfl⟩
                · split
                  · exact Or.inl ⟨_, rfl⟩
                  · split
                    · exact Or.inl ⟨_, rfl⟩
                    · exact Or.inr ⟨location, repository, rfl, rfl⟩

theorem destroyed_worktreeRemove (repoPath path : Path) (force : Bool)
    (branch : Option BranchName) (world : World Location) :
    Destroyed tree repoPath (tree.locate path) branch world
      (Git.worktreeRemove tree repoPath path force world).final := by
  rcases worktreeRemove_eq tree repoPath path force world with
    ⟨refusal, refused⟩ | ⟨location, repository, found, removed⟩
  · rw [refused]
    exact Std.Refl.refl world
  · rw [removed, Outcome.final_ok]
    have known := (World.repositoryAt_eq_some_iff.mp found).2
    refine IsTrans.trans _ _ _ (destroyed_removeTree tree repoPath (tree.locate path) branch world) ?_
    refine destroyed_setRepository known rfl ?_ ?_
    · intro worktree member stays
      simpa [member] using stays.1
    · intro name member _
      exact member

theorem destroyed_worktreePrune (repoPath : Path) (target : Location)
    (branch : Option BranchName) (world : World Location) :
    Destroyed tree repoPath target branch world (Git.worktreePrune tree repoPath world).final := by
  apply Git.inRepository_final
  intro location repository world known
  refine destroyed_setRepository known rfl ?_ ?_
  · intro worktree member stays
    rcases stays.2 with locked | ⟨-, present⟩
    · simp [member, locked]
    · simp [member, present]
  · intro name member _
    exact member

omit [DecidableEq Location] in
theorem holder_of_firm {tree : FileTree Location} {target location : Location}
    {world : World Location} {repository : Repository Location} {name : BranchName}
    (known : world.repositories location = some repository)
    (firm : Firm tree target world location name) : repository.holder location name ≠ none := by
  rw [Repository.holder]
  rcases firm with head | ⟨worktree, member, has, -⟩
  · rw [World.headOf, known, Option.bind_some] at head
    rw [if_pos head]
    simp
  · rw [World.worktreesOf, known] at member
    split
    · simp
    · intro unheld
      rw [Option.map_eq_none_iff, List.find?_eq_none] at unheld
      exact unheld worktree member (by simpa using has)

theorem destroyed_branchDelete (repoPath : Path) (target : Location)
    (name : BranchName) (world : World Location) :
    Destroyed tree repoPath target (some name) world
      (Git.branchDelete tree repoPath name world).final := by
  cases found : world.repositoryAt tree repoPath with
  | none =>
      rcases Git.inRepository_of_none _ found with ⟨refusal, refused⟩
      rw [Git.branchDelete, refused]
      exact Std.Refl.refl world
  | some pair =>
      rcases pair with ⟨location, repository⟩
      rcases World.repositoryAt_eq_some_iff.mp found with ⟨owner, known⟩
      rw [Git.branchDelete, Git.inRepository_of_some _ found]
      split
      · exact Std.Refl.refl world
      next free =>
        split
        · refine destroyed_setRepository known rfl ?_ ?_
          · intro worktree member _
            exact member
          · intro other member kept
            have different : other ≠ name := by
              intro same
              rcases kept with elsewhere | named | firm
              · exact elsewhere owner
              · exact named (by rw [same])
              · rw [same] at firm
                exact holder_of_firm known firm free
            simp [member, different]
        · exact Std.Refl.refl world

theorem destroyed_pushDelete (repoPath : Path) (target : Location)
    (branch : Option BranchName) (name : BranchName) (world : World Location) :
    Destroyed tree repoPath target branch world
      (Git.pushDelete tree repoPath name world).final := by
  apply Git.inRepository_final
  intro location repository world known
  split
  · refine destroyed_setRepository known rfl ?_ ?_
    · intro worktree member _
      exact member
    · intro other member _
      exact member
  · exact Std.Refl.refl world

end Git

namespace Placed

variable {tree : FileTree Location} {repoPath path : Path} {location : Location}
  {branch : Option BranchName} {before after : World Location}
  {other : Location} {spared : List BranchName}

omit [DecidableEq Location] in
theorem hasEntry_eq (placed : Placed tree repoPath path location branch spared before after)
    (elsewhere : tree.within other (tree.locate path) = false) :
    after.hasEntry other = before.hasEntry other := by
  rw [World.hasEntry_eq, World.hasEntry_eq, placed.entries other elsewhere]

theorem mem_worktreesOf (placed : Placed tree repoPath path location branch spared before after)
    (member : worktree ∈ before.worktreesOf other) : worktree ∈ after.worktreesOf other := by
  by_cases same : other = location
  · rw [same] at member ⊢
    rw [placed.worktrees]
    simp [member]
  · rw [World.worktreesOf, placed.others other same]
    exact member

theorem mem_branchesOf (placed : Placed tree repoPath path location branch [] before after)
    (member : name ∈ before.branchesOf other) : name ∈ after.branchesOf other := by
  by_cases same : other = location
  · rw [same] at member ⊢
    exact placed.branches name member (by simp)
  · rw [World.branchesOf, placed.others other same]
    exact member

omit [DecidableEq Location] in
theorem steady (placed : Placed tree repoPath path location branch spared before after)
    {worktree : Worktree Location} (stays : Steady tree (tree.locate path) before worktree) :
    Steady tree (tree.locate path) after worktree := by
  rcases stays with ⟨elsewhere, locked | ⟨outer, present⟩⟩
  · exact ⟨elsewhere, Or.inl locked⟩
  · exact ⟨elsewhere, Or.inr ⟨outer, by rw [placed.hasEntry_eq outer, present]⟩⟩

theorem firm (placed : Placed tree repoPath path location branch spared before after)
    (held : Firm tree (tree.locate path) before location name) :
    Firm tree (tree.locate path) after location name := by
  rcases held with head | ⟨worktree, member, has, stays⟩
  · exact Or.inl (placed.head.trans head)
  · exact Or.inr ⟨worktree, placed.mem_worktreesOf member, has, placed.steady stays⟩

end Placed

namespace WorktreeProvider

variable (provider : WorktreeProvider Location) (outside : Outside) (repoPath path : Path)

theorem destroyed_removeRegistered (force : Option Bool)
    (branch : Option BranchName) :
    Leads (Destroyed provider.tree repoPath (provider.tree.locate path) branch)
      (removeRegistered provider outside repoPath path force) := by
  intro world
  have removed : Destroyed provider.tree repoPath (provider.tree.locate path) branch world
      ((gitWorktreeRemove provider outside repoPath path force).run world).final :=
    execFileAsync_final
      (Git.destroyed_worktreeRemove provider.tree repoPath path (force = some true) branch world)
      _ _ _
  rw [removeRegistered]
  dsimp only
  split
  next ran =>
    rw [ran] at removed
    exact removed
  next ran =>
    rw [ran] at removed
    split
    · exact removed
    · exact removed

omit [DecidableEq Location] in
theorem destroyed_removeRemaining (branch : Option BranchName)
    (result : DestroyResult) :
    Leads (Destroyed provider.tree repoPath (provider.tree.locate path) branch)
      (removeRemaining provider outside path result) := by
  intro world
  have removed : Destroyed provider.tree repoPath (provider.tree.locate path) branch world
      ((removeDirAll provider.tree (outside.file .removeRemaining) path).run world).final := by
    rcases removeDirAll_final provider.tree (outside.file .removeRemaining) path world with
      kept | gone
    · rw [kept]
      exact Std.Refl.refl world
    · rw [gone]
      exact destroyed_removeTree provider.tree repoPath _ branch world
  rw [removeRemaining]
  dsimp only
  split
  next ran =>
    rw [ran] at removed
    exact removed
  next ran =>
    rw [ran] at removed
    exact removed

omit [DecidableEq Location] in
theorem leads_directoryExists {relation : World Location → World Location → Prop}
    [Std.Refl relation] (error : Option IoError) (path : Path) :
    Leads relation (directoryExists provider.tree error path) := by
  intro world
  cases error with
  | none => exact Std.Refl.refl world
  | some error => exact Std.Refl.refl world

theorem destroyed_removeWorktree (force : Option Bool)
    (branch : Option BranchName) (result : DestroyResult) :
    Leads (Destroyed provider.tree repoPath (provider.tree.locate path) branch)
      (removeWorktree provider outside repoPath path force result) := by
  rw [removeWorktree]
  apply leads_bind (destroyed_removeRegistered provider outside repoPath path force branch)
  intro _
  dsimp only
  refine leads_bind (leads_directoryExists provider (outside.file .remaining) path) ?_
  intro dirExists
  split
  · exact destroyed_removeRemaining provider outside repoPath path branch _
  · exact leads_pure _

omit [DecidableEq Location] in
theorem destroyRepoPath_ends (path : Path) (options : DestroyOptions) (pathExists : Bool)
    (world : World Location) :
    (∃ found, (destroyRepoPath provider outside path options pathExists).run world =
        .ok found world ∧
        ∀ given, options.canonicalRepoPath = some given → found = some given) ∨
      ∃ error, (destroyRepoPath provider outside path options pathExists).run world =
        .error error world := by
  rw [destroyRepoPath]
  split
  next repoPath given => exact Or.inl ⟨some repoPath, rfl, fun other same => by rw [← given, same]⟩
  next missing =>
    split
    · rw [bind_of_ok (run_read world)]
      rcases ofExcept_run (getCanonicalRepoPath provider outside path world) world with
        ⟨repoPath, -, ran⟩ | ⟨error, ran⟩
      · rw [bind_of_ok ran]
        exact Or.inl ⟨some repoPath, rfl, fun other same => by simp [missing] at same⟩
      · rw [bind_of_error ran]
        exact Or.inr ⟨error, rfl⟩
    · exact Or.inl ⟨none, rfl, fun other same => by simp [missing] at same⟩

/-- Once the repository is known, destroying touches one place and one branch of it. -/
theorem destroyed_onward (options : DestroyOptions)
    (result : DestroyResult) :
    Leads (Destroyed provider.tree repoPath (provider.tree.locate path) options.branchName) (do
      let result ← pruneAndVerify provider outside repoPath path result
      deleteBranches provider outside repoPath options result) := by
  apply leads_bind (leads_pruneAndVerify provider outside
    (Git.destroyed_worktreePrune provider.tree repoPath _ _) path result)
  intro result
  refine leads_deleteBranches provider outside ?_ ?_ result
  · intro branchName named world
    rw [named]
    exact Git.destroyed_branchDelete provider.tree repoPath _ branchName world
  · exact Git.destroyed_pushDelete provider.tree repoPath _ _

theorem destroyed_destroy (path : Path) (options : DestroyOptions) (world : World Location) :
    ∃ repoPath, (∀ given, options.canonicalRepoPath = some given → repoPath = given) ∧
      Destroyed provider.tree repoPath (provider.tree.locate path) options.branchName world
        ((destroy provider outside path options).run world).final := by
  have unchanged : ∃ repoPath, (∀ given, options.canonicalRepoPath = some given →
      repoPath = given) ∧ Destroyed provider.tree repoPath (provider.tree.locate path)
        options.branchName world world :=
    ⟨options.canonicalRepoPath.getD [], fun given same => by rw [same]; rfl, Std.Refl.refl world⟩
  rw [destroy]
  cases broken : outside.file .path with
  | some error => exact unchanged
  | none =>
      rw [bind_of_ok (directoryExists_run provider.tree path world rfl)]
      dsimp only
      rcases destroyRepoPath_ends provider outside path options
        (world.directories (provider.tree.locate path)).isSome world with
        ⟨found, ran, given⟩ | ⟨error, ran⟩
      · rw [bind_of_ok ran]
        cases found with
        | none =>
            dsimp only
            split
            · exact unchanged
            · exact unchanged
        | some repoPath =>
            refine ⟨repoPath, fun other same => Option.some.inj (given other same), ?_⟩
            dsimp only
            split
            · exact leads_bind (destroyed_removeWorktree provider outside repoPath path _ _ _)
                (destroyed_onward provider outside repoPath path options) world
            · exact leads_bind (leads_pure _)
                (destroyed_onward provider outside repoPath path options) world
      · rw [bind_of_error ran]
        exact unchanged

end WorktreeProvider

end HarnessAgent
