import HarnessAgent.Isolation.Rollback

/-! # Worktrees that are left half-initialised

What a call of `create` that fails leaves in the place of the worktree, and what later
calls for the same request find there.
-/

namespace HarnessAgent

open LexicalPath StatefulRun WorktreeProvider

section

variable {Location : Type}

/-! ## New `.git` entries -/

def OnlyNewAt (tree : FileTree Location) (path : Path) (before after : World Location) : Prop :=
  ∀ other, other ≠ tree.locate path → after.hasEntry other = true → before.hasEntry other = true

def LeavesNone (tree : FileTree Location) (path : Path) (before after : World Location) : Prop :=
  after.hasEntry (tree.locate path) = true →
    after.directories (tree.locate path) = before.directories (tree.locate path)

instance (tree : FileTree Location) (path : Path) : Std.Refl (OnlyNewAt tree path) where
  refl _ := fun _ _ present => present

instance (tree : FileTree Location) (path : Path) :
    IsTrans (World Location) (OnlyNewAt tree path) where
  trans _ _ _ first second := fun other elsewhere present =>
    first other elsewhere (second other elsewhere present)

instance (tree : FileTree Location) (path : Path) : Std.Refl (LeavesNone tree path) where
  refl _ := fun _ => rfl

instance (tree : FileTree Location) (path : Path) :
    IsTrans (World Location) (LeavesNone tree path) where
  trans _ _ _ first second := fun present => by
    have later := second present
    rw [World.hasEntry, later] at present
    exact later.trans (first present)

theorem onlyNewAt_of_directories (same : after.directories = before.directories)
    (tree : FileTree Location) (path : Path) : OnlyNewAt tree path before after := by
  intro other _ present
  rw [World.hasEntry, same] at present
  exact present

theorem SameGit.onlyNewAt (same : SameGit before after) (tree : FileTree Location) (path : Path) :
    OnlyNewAt tree path before after := by
  intro other _ present
  rw [← same.hasEntry_eq other]
  exact present

variable (tree : FileTree Location)

theorem onlyNewAt_removeTree (path : Path) (target : Location)
    (world : World Location) : OnlyNewAt tree path world (world.removeTree tree target) := by
  intro other _ present
  rw [World.hasEntry, World.removeTree] at present
  dsimp only at present
  split at present
  · cases present
  · exact present

theorem leavesNone_removeTree (path : Path) (target : Location)
    (world : World Location) : LeavesNone tree path world (world.removeTree tree target) := by
  intro present
  rw [World.hasEntry, World.removeTree] at present
  dsimp only at present
  split at present
  · cases present
  next outside =>
    rw [World.removeTree]
    dsimp only
    rw [if_neg outside]

theorem leavesNone_makeParents (path : Path) (location : Location)
    (world : World Location) : LeavesNone tree path world (world.makeParents tree location) := by
  intro present
  rw [World.makeParents]
  dsimp only
  cases there : world.directories (tree.locate path) with
  | some directory => rfl
  | none =>
      rw [World.hasEntry, World.makeParents] at present
      dsimp only at present
      rw [there] at present
      dsimp only at present
      split at present
      · cases present
      · cases present

theorem leads_cleanOrphanDirectory [Std.Refl relation] (provider : WorktreeProvider Location)
    (outside : Outside) (worktreePath : Path) (removes : ∀ world, relation world
      (world.removeTree provider.tree (provider.tree.locate worktreePath))) :
    Leads relation (cleanOrphanDirectoryIfExists provider outside worktreePath) := by
  intro world
  rcases cleanOrphanDirectory_final provider outside worktreePath world with
    kept | ⟨-, removed⟩
  · rw [kept]
    exact Std.Refl.refl world
  · rw [removed]
    exact removes world

theorem leads_unlessExists [IsTrans (World Location) relation] (commands : Leads relation command)
    (insteads : Leads relation instead) : Leads relation (unlessExists command instead) := by
  intro world
  have first := commands world
  rw [unlessExists]
  dsimp only
  split
  next ran =>
    rw [ran] at first
    exact first
  next message next ran =>
    rw [ran] at first
    split
    · exact IsTrans.trans _ _ _ first (insteads next)
    · exact first

end

variable {Location : Type} [DecidableEq Location]

namespace Git

variable (tree : FileTree Location)

theorem sameDirectories_checkoutNew (path : Path) (branch : BranchName)
    (start : List Char) (world : World Location) :
    SameDirectories world (Git.checkoutNew tree path branch start world).final := by
  apply Git.inRepository_final
  intro location repository world known
  split
  · rfl
  · split
    · rfl
    · dsimp only
      split
      · rfl
      · rfl

theorem onlyNewAt_addWorktree (path : Path) (location : Location)
    (repository : Repository Location) (branch : Option BranchName) (revision : List Char)
    (world : World Location) :
    OnlyNewAt tree path world
      (Git.addWorktree tree path location repository branch revision world).final := by
  by_cases can : Git.CanAdd tree path location repository branch world
  · rw [Git.addWorktree_of_canAdd revision can, Outcome.final_ok]
    intro other elsewhere present
    have parents := sameGit_makeParents tree (tree.locate path) world
    rw [← parents.hasEntry_eq other]
    simpa [World.hasEntry, Git.placeWorktree, World.setRepository, World.setDirectory, elsewhere]
      using present
  · rcases Git.addWorktree_of_not_canAdd revision can with ⟨refusal, refused⟩
    rw [refused]
    exact Std.Refl.refl world

theorem onlyNewAt_setRepository (path : Path) (location : Location)
    (repository : Repository Location) (world : World Location) :
    OnlyNewAt tree path world (world.setRepository location repository) :=
  onlyNewAt_of_directories rfl tree path

theorem onlyNewAt_worktreeAddNew (repoPath path : Path)
    (branch : BranchName) (start : List Char) (world : World Location) :
    OnlyNewAt tree path world (Git.worktreeAddNew tree repoPath path branch start world).final := by
  apply Git.inRepository_final
  intro location repository world known
  split
  · exact Std.Refl.refl world
  · split
    · exact Std.Refl.refl world
    · exact IsTrans.trans _ _ _ (onlyNewAt_setRepository tree path location _ world)
        (onlyNewAt_addWorktree tree path location _ _ start _)

theorem onlyNewAt_worktreeAdd (repoPath path : Path)
    (revision : List Char) (world : World Location) :
    OnlyNewAt tree path world (Git.worktreeAdd tree repoPath path revision world).final := by
  apply Git.inRepository_final
  intro location repository world known
  split
  · exact onlyNewAt_addWorktree tree path location _ _ revision world
  · split
    · exact onlyNewAt_addWorktree tree path location _ _ revision world
    · split
      · exact IsTrans.trans _ _ _ (onlyNewAt_setRepository tree path location _ world)
          (onlyNewAt_addWorktree tree path location _ _ revision _)
      · exact Std.Refl.refl world

theorem worktreeRemove_leads [Std.Refl relation] [IsTrans (World Location) relation]
    {tree : FileTree Location}
    (removes : ∀ world target, relation world (world.removeTree tree target))
    (registers : ∀ world location repository,
      relation world (world.setRepository location repository)) (repoPath path : Path)
    (force : Bool) (world : World Location) :
    relation world (Git.worktreeRemove tree repoPath path force world).final := by
  rcases Git.worktreeRemove_eq tree repoPath path force world with
    ⟨refusal, refused⟩ | ⟨location, repository, -, removed⟩
  · rw [refused]
    exact Std.Refl.refl world
  · rw [removed]
    exact IsTrans.trans _ _ _ (removes world _) (registers _ location _)

end Git

namespace WorktreeProvider

variable (provider : WorktreeProvider Location) (outside : Outside)

theorem cleanOrphanWorktree_leads [Std.Refl relation] [IsTrans (World Location) relation]
    (removes : ∀ world target, relation world (world.removeTree provider.tree target))
    (registers : ∀ world location repository,
      relation world (world.setRepository location repository)) (repoPath worktreePath : Path)
    (world : World Location) :
    relation world (cleanOrphanWorktreeIfExists provider outside repoPath worktreePath world) := by
  rw [cleanOrphanWorktreeIfExists]
  split
  · exact Std.Refl.refl world
  · split
    · exact leads_execFileAsync
        (Git.worktreeRemove_leads removes registers repoPath worktreePath false) _ _ _ world
    · exact Std.Refl.refl world

/-! ## Other places -/

variable {worktreePath : Path}

theorem onlyNewAt_createBranchWithStaleRetry (repoPath : Path) (name : BranchName)
    (creates : Leads (OnlyNewAt provider.tree worktreePath) createCommand)
    (retries : Leads (OnlyNewAt provider.tree worktreePath) retry) :
    Leads (OnlyNewAt provider.tree worktreePath)
      (createBranchWithStaleRetry provider outside repoPath name createCommand retry) := by
  apply leads_unlessExists creates
  refine leads_bind (leads_mapError _ (leads_execFileAsync ?_ _ _ _)) ?_
  · intro world
    exact onlyNewAt_of_directories
      (Git.keepsTo_branchDelete provider.tree repoPath name world).directories _ _
  · intro _
    exact leads_mapError _ retries

theorem onlyNewAt_createFromSameRepoPr (repoPath worktreePath : Path) (prBranch : BranchName) :
    Leads (OnlyNewAt provider.tree worktreePath)
      (createFromSameRepoPr provider outside repoPath worktreePath prBranch) := by
  rw [createFromSameRepoPr]
  refine leads_bind (leads_mapError _ (leads_execFileAsync ?_ _ _ _)) ?_
  · intro world
    exact onlyNewAt_of_directories
      (Git.keepsTo_fetch provider.tree repoPath [] prBranch world).directories _ _
  · intro _
    exact leads_unlessExists
      (leads_execFileAsync (Git.onlyNewAt_worktreeAddNew provider.tree repoPath worktreePath _ _)
        _ _ _)
      (leads_mapError _ (leads_execFileAsync
        (Git.onlyNewAt_worktreeAdd provider.tree repoPath worktreePath _) _ _ _))

theorem onlyNewAt_createFromForkPr (repoPath worktreePath : Path) (prNumber : List Char)
    (prSha : Option (List Char)) :
    Leads (OnlyNewAt provider.tree worktreePath)
      (createFromForkPr provider outside repoPath worktreePath prNumber prSha) := by
  have adds : ∀ revision arguments, Leads (OnlyNewAt provider.tree worktreePath)
      (git outside .add repoPath arguments
        (Git.worktreeAdd provider.tree repoPath worktreePath revision)) := fun revision arguments =>
    leads_execFileAsync (Git.onlyNewAt_worktreeAdd provider.tree repoPath worktreePath revision)
      _ _ _
  cases prSha with
  | some sha =>
      have checksOut : ∀ site arguments name, Leads (OnlyNewAt provider.tree worktreePath)
          (git outside site worktreePath arguments
            (Git.checkoutNew provider.tree worktreePath name sha)) := by
        intro site arguments name
        refine leads_execFileAsync ?_ _ _ _
        intro world
        exact onlyNewAt_of_directories
          (Git.sameDirectories_checkoutNew provider.tree worktreePath name sha world) _ _
      refine leads_bind (leads_mapError _ (leads_execFileAsync ?_ _ _ _)) ?_
      · intro world
        exact onlyNewAt_of_directories
          (Git.keepsTo_fetch provider.tree repoPath [] _ world).directories _ _
      · intro _
        refine leads_bind (leads_mapError _ (adds sha _)) ?_
        intro _
        exact onlyNewAt_createBranchWithStaleRetry provider outside repoPath _
          (checksOut _ _ _) (checksOut _ _ _)
  | none =>
      have fetches : ∀ site arguments remote name, Leads (OnlyNewAt provider.tree worktreePath)
          (git outside site repoPath arguments
            (Git.fetchInto provider.tree repoPath remote name)) := by
        intro site arguments remote name
        refine leads_execFileAsync ?_ _ _ _
        intro world
        exact onlyNewAt_of_directories
          (Git.keepsTo_fetchInto provider.tree repoPath [] remote name world).directories _ _
      refine leads_bind (onlyNewAt_createBranchWithStaleRetry provider outside repoPath _
        (fetches _ _ _ _) (fetches _ _ _ _)) ?_
      intro _
      exact leads_mapError _ (adds _ _)

theorem onlyNewAt_createFromPr (base : IsolationRequestBase) (identifier : List Char)
    (prBranch : BranchName) (prSha : Option (List Char)) (isForkPr : Bool) (worktreePath : Path) :
    Leads (OnlyNewAt provider.tree worktreePath)
      (createFromPr provider outside base identifier prBranch prSha isForkPr worktreePath) := by
  rw [createFromPr]
  refine leads_bind (leads_cleanOrphanDirectory provider outside worktreePath
    (onlyNewAt_removeTree provider.tree worktreePath _)) ?_
  intro _ world
  have added : Leads (OnlyNewAt provider.tree worktreePath) (if !isForkPr then
      createFromSameRepoPr provider outside base.canonicalRepoPath worktreePath prBranch
    else createFromForkPr provider outside base.canonicalRepoPath worktreePath identifier prSha) := by
    split
    · exact onlyNewAt_createFromSameRepoPr provider outside _ worktreePath prBranch
    · exact onlyNewAt_createFromForkPr provider outside _ worktreePath identifier prSha
  have adds := added world
  dsimp only
  split
  next ran =>
    rw [ran] at adds
    exact adds
  next ran =>
    rw [ran] at adds
    exact IsTrans.trans _ _ _ adds (cleanOrphanWorktree_leads provider outside
      (fun world target => onlyNewAt_removeTree provider.tree worktreePath target world)
      (fun world location repository =>
        Git.onlyNewAt_setRepository provider.tree worktreePath location repository world)
      _ worktreePath _)

variable (request : IsolationRequest)

theorem onlyNewAt_createNewBranch (repoPath worktreePath : Path)
    (branchName baseBranch : BranchName) :
    Leads (OnlyNewAt provider.tree worktreePath)
      (createNewBranch provider outside request repoPath worktreePath branchName baseBranch) := by
  rw [createNewBranch]
  refine leads_bind (leads_cleanOrphanDirectory provider outside worktreePath
    (onlyNewAt_removeTree provider.tree worktreePath _)) ?_
  intro _
  refine leads_unlessExists
    (leads_execFileAsync (Git.onlyNewAt_worktreeAddNew provider.tree repoPath worktreePath _ _)
      _ _ _) ?_
  split
  · exact leads_fail _
  · refine leads_bind (leads_mapError _ (leads_execFileAsync ?_ _ _ _)) ?_
    · intro world
      exact onlyNewAt_of_directories
        (Git.keepsTo_branchForce provider.tree repoPath [] _ _ world).directories _ _
    · intro _
      exact leads_mapError _ (leads_execFileAsync
        (Git.onlyNewAt_worktreeAdd provider.tree repoPath worktreePath _) _ _ _)

theorem onlyNewAt_addWorktree (worktreePath : Path)
    (branchName baseBranch : BranchName) :
    Leads (OnlyNewAt provider.tree worktreePath)
      (addWorktree provider outside request worktreePath branchName baseBranch) := by
  cases request with
  | pr base identifier prBranch prSha isForkPr =>
      exact onlyNewAt_createFromPr provider outside base identifier prBranch prSha isForkPr
        worktreePath
  | _ => exact onlyNewAt_createNewBranch provider outside _ _ worktreePath branchName baseBranch

theorem onlyNewAt_createWorktree (worktreePath : Path)
    (branchName : BranchName) (config : Option WorktreeCreateConfig) :
    Leads (OnlyNewAt provider.tree worktreePath)
      (createWorktree provider outside request worktreePath branchName config) := by
  intro world
  have adds : ∀ baseBranch baseDir, OnlyNewAt provider.tree worktreePath world
      ((addWorktree provider outside request worktreePath branchName baseBranch).run
        (world.makeParents provider.tree (provider.tree.locate baseDir))).final := by
    intro baseBranch baseDir
    have parents := sameGit_makeParents provider.tree (provider.tree.locate baseDir) world
    exact IsTrans.trans _ _ _ (parents.onlyNewAt _ _)
      (onlyNewAt_addWorktree provider outside request worktreePath branchName baseBranch _)
  have fills := sameGit_initSubmodules provider outside worktreePath config
  have ends := createWorktree_ends provider outside request worktreePath branchName config world
  generalize (createWorktree provider outside request worktreePath branchName config).run world =
    outcome at ends
  cases ends with
  | refused error => exact Std.Refl.refl world
  | @notAdded baseBranch baseDir error final adding =>
      have added := adds baseBranch baseDir
      rw [adding] at added
      exact added
  | @notInitialized baseBranch baseDir between error final adding filling =>
      have added := adds baseBranch baseDir
      have filled := fills between
      rw [adding] at added
      rw [filling] at filled
      exact IsTrans.trans _ _ _ added (filled.onlyNewAt _ _)
  | @done baseBranch baseDir between filled adding filling =>
      have added := adds baseBranch baseDir
      rw [adding] at added
      have filledSame := fills between
      rw [filling] at filledSame
      have copied := sameGit_copyConfiguredFiles provider outside
        request.base.canonicalRepoPath worktreePath config filled
      exact IsTrans.trans _ _ _ added
        (IsTrans.trans _ _ _ (filledSame.onlyNewAt _ _) (copied.onlyNewAt _ _))

/-! ## A worktree that is made completely -/

open WorktreeCopy in
def CopiesFiles (repoPath worktreePath : Path) (config : Option WorktreeCreateConfig) : Prop :=
  ∀ file ∈ copyFiles provider config repoPath, ∀ entry, parseCopyFileEntry file = .ok entry →
    isPathWithinRoot repoPath entry.source = true ∧
      isPathWithinRoot worktreePath entry.destination = true ∧
      (outside.disk.metadata (nodeJoin repoPath entry.source) = .error .notFound ∨
        ∃ isDir, outside.disk.metadata (nodeJoin repoPath entry.source) = .ok isDir ∧
          outside.disk.createParent (nodeJoin worktreePath entry.destination) = .ok () ∧
          (if isDir then outside.disk.copyDirRecursive else outside.disk.copy)
            (nodeJoin repoPath entry.source) (nodeJoin worktreePath entry.destination) = .ok ())

def Complete (config : Option WorktreeCreateConfig) (directory : Directory Location) : Prop :=
  directory.filesCopied = true ∧
    (config.all (·.initSubmodules ≠ some false) = true → directory.hasGitmodules = true →
      directory.submodulesInitialized = true)

theorem initSubmodules_eq_ok
    (there : world.directories (provider.tree.locate worktreePath) = some directory)
    (ran : (initSubmodulesUnlessOptedOut provider outside worktreePath config).run world =
      .ok () next) :
    ∃ filled, next.directories (provider.tree.locate worktreePath) = some filled ∧
      (config.all (·.initSubmodules ≠ some false) = true → filled.hasGitmodules = true →
        filled.submodulesInitialized = true) := by
  rw [initSubmodulesUnlessOptedOut] at ran
  split at ran
  next opted =>
    rw [initSubmodules] at ran
    dsimp only at ran
    split at ran
    · cases ran
    · split at ran
      next has =>
        have updated := (execFileAsync_eq_ok.mp (mapError_eq_ok.mp ran)).2
        rcases Git.inRepository_eq_ok updated with ⟨location, repository, -, updated⟩
        simp only [there] at updated
        cases updated
        refine ⟨{ directory with submodulesInitialized := true }, ?_, fun _ _ => rfl⟩
        simp [World.setDirectory]
      next hasNot =>
        cases ran
        refine ⟨directory, there, ?_⟩
        intro _ has
        rw [there] at hasNot
        exact absurd has (by simpa using hasNot)
  next opted =>
    cases ran
    exact ⟨directory, there, fun other => absurd other opted⟩

omit [DecidableEq Location] in
open WorktreeCopy in
theorem all_isCopied {repoPath : Path} {config : Option WorktreeCreateConfig}
    (copies : CopiesFiles provider outside repoPath worktreePath config) :
    (copyFiles provider config repoPath).all (isCopied outside.disk repoPath worktreePath
      (copyWorktreeFiles outside.disk repoPath worktreePath
        (copyFiles provider config repoPath))) = true := by
  apply List.all_eq_true.mpr
  intro file member
  rw [isCopied]
  cases parsed : parseCopyFileEntry file with
  | error error => rfl
  | ok entry =>
      dsimp only
      rw [Bool.or_eq_true_iff]
      rcases copies file member entry parsed with
        ⟨sourceWithin, destWithin, missing | ⟨isDir, found, parent, done⟩⟩
      · right
        rw [lacksSource, sourceWithin, destWithin, missing]
        rfl
      · left
        have copied : (copyWorktreeFile outside.disk repoPath worktreePath entry).copied = true := by
          rw [copyWorktreeFile, sourceWithin, destWithin]
          cases isDir with
          | false => simp_all [Except.isOk, Except.toBool]
          | true => simp_all [Except.isOk, Except.toBool]
        exact List.contains_iff_mem.mpr (mem_copyWorktreeFiles member parsed copied)

theorem complete_of_created {request : IsolationRequest} {world final : World Location}
    (ran : (createWorktree provider outside request worktreePath (branchNameOf provider request)
      config).run world = .ok () final)
    (copies : CopiesFiles provider outside request.base.canonicalRepoPath worktreePath config) :
    ∃ directory, final.directories (provider.tree.locate worktreePath) = some directory ∧
      Complete config directory := by
  have ends := createWorktree_ends provider outside request worktreePath
    (branchNameOf provider request) config world
  rw [ran] at ends
  cases ends with
  | @done baseBranch baseDir added filled adding filling =>
      rcases placedFor_addWorktree provider outside adding with ⟨location, branch, -, placed, -⟩
      rcases placed.entry with ⟨content, entry⟩
      cases there : added.directories (provider.tree.locate worktreePath) with
      | none =>
          rw [World.entryAt, there] at entry
          cases entry
      | some directory =>
          rcases initSubmodules_eq_ok provider outside there filling with ⟨done, present, modules⟩
          have copied := all_isCopied provider outside copies
          refine ⟨{ done with filesCopied := true }, ?_, rfl, modules⟩
          rw [copyConfiguredFiles]
          simp [present, copied, World.setDirectory]

end WorktreeProvider

/-! ## Attempts that fail -/

def PlacedSome (tree : FileTree Location) (repoPath path : Path) (spared : List BranchName)
    (before after : World Location) : Prop :=
  ∃ location branch, before.ownerAt (tree.locate repoPath) = some location ∧
    Placed tree repoPath path location branch spared before after

/-- A failed attempt has changed only branches, or it has added the worktree all the
same, which a clean one does not. -/
def Tried (tree : FileTree Location) (repoPath path : Path) (spared : List BranchName)
    (clean : Prop) (before after : World Location) : Prop :=
  KeepsTo tree repoPath spared before after ∨
    (¬clean ∧ PlacedSome tree repoPath path spared before after)

section

variable {tree : FileTree Location} {repoPath path : Path} {spared : List BranchName}
  {clean : Prop} {before between after : World Location}

omit [DecidableEq Location] in
theorem PlacedSome.after_keepsTo (keeps : KeepsTo tree repoPath spared before between)
    (placed : PlacedSome tree repoPath path spared between after) :
    PlacedSome tree repoPath path spared before after := by
  rcases placed with ⟨location, branch, owner, placed⟩
  rw [keeps.ownerAt_eq] at owner
  exact ⟨location, branch, owner, Placed.after_branchesOnly (keeps.only location owner) placed⟩

omit [DecidableEq Location] in
theorem PlacedSome.then_keepsTo (placed : PlacedSome tree repoPath path spared before between)
    (keeps : KeepsTo tree repoPath spared between after) :
    PlacedSome tree repoPath path spared before after := by
  rcases placed with ⟨location, branch, owner, placed⟩
  exact ⟨location, branch, owner,
    placed.then_branchesOnly (keeps.only location placed.owner)⟩

omit [DecidableEq Location] in
theorem Tried.after_keepsTo (keeps : KeepsTo tree repoPath spared before between)
    (tried : Tried tree repoPath path spared clean between after) :
    Tried tree repoPath path spared clean before after := by
  rcases tried with kept | ⟨unclean, placed⟩
  · exact Or.inl (IsTrans.trans _ _ _ keeps kept)
  · exact Or.inr ⟨unclean, placed.after_keepsTo keeps⟩

omit [DecidableEq Location] in
/-- The place is taken after a worktree has been added, so a second one is refused. -/
theorem Tried.then_tried (first : Tried tree repoPath path spared clean before between)
    (again : KeepsTo tree repoPath spared between after ∨
      (¬clean ∧ between.directories (tree.locate path) = none ∧
        PlacedSome tree repoPath path spared between after)) :
    Tried tree repoPath path spared clean before after := by
  rcases again with keeps | ⟨unclean, absent, placedAgain⟩
  · rcases first with kept | ⟨unclean, placed⟩
    · exact Or.inl (IsTrans.trans _ _ _ kept keeps)
    · exact Or.inr ⟨unclean, placed.then_keepsTo keeps⟩
  · rcases first with kept | ⟨-, placed⟩
    · exact Or.inr ⟨unclean, placedAgain.after_keepsTo kept⟩
    · rcases placed with ⟨location, branch, -, placed⟩
      rcases placed.entry with ⟨content, entry⟩
      rw [World.entryAt, absent] at entry
      cases entry

end

namespace Git

variable {tree : FileTree Location} {world : World Location} {refusal : Int × List Char}

theorem addWorktree_eq_error
    (refused : Git.addWorktree tree path location repository branch revision world =
      .error refusal next) : next = world := by
  by_cases can : Git.CanAdd tree path location repository branch world
  · rw [Git.addWorktree_of_canAdd revision can] at refused
    cases refused
  · rcases Git.addWorktree_of_not_canAdd revision can with ⟨other, same⟩
    rw [same] at refused
    cases refused
    rfl

variable {repoPath : Path}

theorem keepsTo_addBranch {spared : List BranchName} (branch : BranchName)
    (found : world.repositoryAt tree repoPath = some (location, repository)) :
    KeepsTo tree repoPath spared world
      (world.setRepository location (repository.addBranch branch)) := by
  rcases World.repositoryAt_eq_some_iff.mp found with ⟨owner, known⟩
  refine ⟨rfl, ?_⟩
  intro other otherOwner
  rw [owner] at otherOwner
  cases otherOwner
  exact branchesOnly_addBranch branch known

theorem keepsTo_of_worktreeAddNew_refused (spared : List BranchName)
    (refused : Git.worktreeAddNew tree repoPath path branch start world = .error refusal next) :
    KeepsTo tree repoPath spared world next := by
  rcases Git.worktreeAddNew_eq_error refused with ⟨rfl, -⟩ | ⟨location, repository, found, rfl, -⟩
  · exact Std.Refl.refl _
  · exact keepsTo_addBranch branch found

theorem keepsTo_of_worktreeAdd_refused (spared : List BranchName)
    (refused : Git.worktreeAdd tree repoPath path revision world = .error refusal next) :
    KeepsTo tree repoPath spared world next := by
  rcases Git.inRepository_eq_error refused with ⟨-, rfl⟩ | ⟨location, repository, found, refused⟩
  · exact Std.Refl.refl _
  · split at refused
    · rw [addWorktree_eq_error refused]
      exact Std.Refl.refl world
    · split at refused
      · rw [addWorktree_eq_error refused]
        exact Std.Refl.refl world
      · split at refused
        · rw [addWorktree_eq_error refused]
          exact keepsTo_addBranch revision found
        · cases refused
          exact Std.Refl.refl _

end Git

variable {arguments : List (List Char)} {next : World Location} {message : List Char}

omit [DecidableEq Location] in
theorem execFileAsync_failed {timeoutMs : Nat} {fault : Option Fault}
    {command : GitCommand Location} {relation : World Location → World Location → Prop}
    [Std.Refl relation] {world : World Location}
    (refuses : ∀ refusal final, command world = .error refusal final → relation world final)
    (failed : (execFileAsync timeoutMs fault arguments command).run world = .error message next) :
    relation world next ∨
      ((∃ outer, fault = some outer ∧ outer.acted = true) ∧ command world = .ok () next) := by
  rcases execFileAsync_eq_error failed with ⟨-, refusal, refused⟩ | ⟨outer, given, ended⟩
  · exact Or.inl (refuses refusal next refused)
  · cases acted : outer.acted with
    | false =>
        rw [acted] at ended
        left
        rw [ended]
        exact Std.Refl.refl world
    | true =>
        rw [acted, if_pos rfl] at ended
        cases answer : command world with
        | ok value final =>
            right
            rw [answer] at ended
            exact ⟨⟨outer, given, acted⟩, by rw [ended]; rfl⟩
        | error refusal final =>
            left
            rw [answer] at ended
            rw [ended]
            exact refuses refusal final answer

namespace WorktreeProvider

/-- No addition of a worktree is reported as failed although it was made. -/
def AddsCleanly (outside : Outside) : Prop :=
  ∀ site fault, site = .add ∨ site = .addBranch → outside.git site = some fault →
    fault.acted = false

variable (provider : WorktreeProvider Location) (outside : Outside) {error : IsolationError}

theorem unlessExists_eq_error {Location : Type} {command : GitRun Location}
    {instead : Run Location Unit} {world final : World Location}
    (ran : (unlessExists command instead).run world = .error error final) :
    ∃ message next, command.run world = .error message next ∧
      (final = next ∨ instead.run next = .error error final) := by
  rw [unlessExists] at ran
  dsimp only at ran
  split at ran
  · cases ran
  next message next failed =>
    split at ran
    · exact ⟨message, next, failed, Or.inr ran⟩
    · cases ran
      exact ⟨message, _, failed, Or.inl rfl⟩

theorem orOther_eq_error {Location : Type} {α : Type}
    {first : StatefulRun (List Char) (World Location) α} {world next : World Location}
    (ran : (orOther first).run world = .error error next) :
    ∃ message, first.run world = .error message next := by
  rw [orOther, StatefulRun.mapError] at ran
  dsimp only at ran
  split at ran
  · cases ran
  next message final failed =>
    cases ran
    exact ⟨message, failed⟩

variable {repoPath : Path} {world : World Location}

theorem tried_addNew {path : Path} (failed : (git outside .add repoPath arguments
      (Git.worktreeAddNew provider.tree repoPath path branch start)).run world =
      .error message next) :
    Tried provider.tree repoPath path [] (AddsCleanly outside) world next := by
  rcases execFileAsync_failed
    (fun refusal final => Git.keepsTo_of_worktreeAddNew_refused []) failed with
    keeps | ⟨⟨outer, given, acted⟩, added⟩
  · exact Or.inl keeps
  · right
    refine ⟨?_, ?_⟩
    · intro clean
      rw [clean .add outer (Or.inl rfl) given] at acted
      cases acted
    · rcases Git.inRepository_eq_ok added with ⟨location, repository, found, -⟩
      have owner := (World.repositoryAt_eq_some_iff.mp found).1
      exact ⟨location, _, owner, Git.placed_worktreeAddNew owner added⟩

theorem tried_add {path : Path} (spared : List BranchName) (adds : site = .add ∨ site = .addBranch)
    (failed : (git outside site repoPath arguments
      (Git.worktreeAdd provider.tree repoPath path revision)).run world = .error message next) :
    KeepsTo provider.tree repoPath spared world next ∨
      (¬AddsCleanly outside ∧ world.directories (provider.tree.locate path) = none ∧
        PlacedSome provider.tree repoPath path spared world next) := by
  rcases execFileAsync_failed
    (fun refusal final => Git.keepsTo_of_worktreeAdd_refused spared) failed with
    keeps | ⟨⟨outer, given, acted⟩, added⟩
  · exact Or.inl keeps
  · right
    refine ⟨?_, Git.absent_of_worktreeAdd added, ?_⟩
    · intro clean
      rw [clean site outer adds given] at acted
      cases acted
    · rcases Git.placed_worktreeAdd added with ⟨location, repository, found, placed⟩
      exact ⟨location, _, (World.repositoryAt_eq_some_iff.mp found).1, placed.mono spared⟩

theorem tried_createFromSameRepoPr {worktreePath : Path} {prBranch : BranchName}
    {final : World Location}
    (failed : (createFromSameRepoPr provider outside repoPath worktreePath prBranch).run world =
      .error error final) :
    Tried provider.tree repoPath worktreePath [] (AddsCleanly outside) world final := by
  have fetches := leads_execFileAsync (Git.keepsTo_fetch provider.tree repoPath [] prBranch)
    gitOperationTimeoutMs (outside.git .fetch)
    ("-C".toList :: repoPath :: ["fetch".toList, "origin".toList, prBranch]) world
  rw [← git] at fetches
  rw [createFromSameRepoPr] at failed
  rcases bind_eq_error.mp failed with fetching | ⟨_, fetched, fetching, failed⟩
  · rcases orOther_eq_error fetching with ⟨message, fetching⟩
    rw [fetching] at fetches
    exact Or.inl fetches
  · rw [orOther_eq_ok.mp fetching] at fetches
    apply Tried.after_keepsTo fetches
    rcases unlessExists_eq_error failed with ⟨message, next, first, rfl | again⟩
    · exact tried_addNew provider outside first
    · rcases orOther_eq_error again with ⟨message, again⟩
      exact (tried_addNew provider outside first).then_tried
        (tried_add provider outside [] (Or.inr rfl) again)

theorem tried_createNewBranch {request : IsolationRequest} {worktreePath : Path}
    {branchName baseBranch : BranchName} {final : World Location}
    (failed : (createNewBranch provider outside request repoPath worktreePath branchName
      baseBranch).run world = .error error final) :
    ∃ cleaned, LeavesNone provider.tree worktreePath world cleaned ∧
      Tried provider.tree repoPath worktreePath [] (AddsCleanly outside) cleaned final := by
  have cleans := leads_cleanOrphanDirectory provider outside worktreePath
    (leavesNone_removeTree provider.tree worktreePath _) world
  rw [createNewBranch] at failed
  rcases bind_eq_error.mp failed with cleaning | ⟨_, cleaned, cleaning, failed⟩
  · rw [cleaning] at cleans
    exact ⟨final, cleans, Or.inl (Std.Refl.refl final)⟩
  · rw [cleaning] at cleans
    refine ⟨cleaned, cleans, ?_⟩
    rcases unlessExists_eq_error failed with ⟨message, next, first, rfl | again⟩
    · exact tried_addNew provider outside first
    · have tried := tried_addNew provider outside first
      split at again
      · cases again
        exact tried
      · have forces := leads_execFileAsync
          (Git.keepsTo_branchForce provider.tree repoPath [] branchName
            ((explicitStart request).getD ("origin/".toList ++ baseBranch))) 10000
          (outside.git .resetBranch)
          ["-C".toList, repoPath, "branch".toList, "-f".toList, branchName,
            (explicitStart request).getD ("origin/".toList ++ baseBranch)] next
        rcases bind_eq_error.mp again with forcing | ⟨_, forced, forcing, again⟩
        · rcases orOther_eq_error forcing with ⟨message, forcing⟩
          rw [forcing] at forces
          exact tried.then_tried (Or.inl forces)
        · rw [orOther_eq_ok.mp forcing] at forces
          rcases orOther_eq_error again with ⟨message, again⟩
          exact (tried.then_tried (Or.inl forces)).then_tried
            (tried_add provider outside [] (Or.inr rfl) again)

end WorktreeProvider

namespace Git

variable {repoPath : Path} {tree : FileTree Location} {world : World Location}

theorem branchesOf_fetch (ran : Git.fetch tree repoPath name world = .ok () next)
    (location : Location) : next.branchesOf location = world.branchesOf location := by
  rcases Git.inRepository_eq_ok ran with ⟨other, repository, found, ran⟩
  have known := (World.repositoryAt_eq_some_iff.mp found).2
  split at ran
  · cases ran
    by_cases same : location = other
    · simp [World.branchesOf, World.setRepository, same, known]
    · simp [World.branchesOf, World.setRepository, same]
  · split at ran
    · cases ran
      rfl
    · cases ran

theorem resolves_of_worktreeAdd {path : Path}
    (owner : world.ownerAt (tree.locate repoPath) = some location)
    (ran : Git.worktreeAdd tree repoPath path revision world = .ok () next) :
    ∃ repository, next.repositories location = some repository ∧
      repository.resolves revision = true ∧
      ∀ name ∈ repository.branches, name ∈ world.branchesOf location ∨ name = revision := by
  rcases Git.inRepository_eq_ok ran with ⟨other, repository, found, ran⟩
  rcases World.repositoryAt_eq_some_iff.mp found with ⟨otherOwner, known⟩
  rw [owner] at otherOwner
  cases otherOwner
  have before : world.branchesOf location = repository.branches := by
    rw [World.branchesOf, known]
    rfl
  rw [before]
  have placed : ∀ (changed : Repository Location) branch between,
      Git.addWorktree tree path location changed branch revision between = .ok () next →
      changed.resolves revision = true →
      (∀ name ∈ changed.branches, name ∈ repository.branches ∨ name = revision) →
      ∃ repository', next.repositories location = some repository' ∧
        repository'.resolves revision = true ∧
        ∀ name ∈ repository'.branches, name ∈ repository.branches ∨ name = revision := by
    intro changed branch between added resolves branches
    rw [(Git.addWorktree_eq_ok added).2]
    exact ⟨_, Git.repositories_setRepository _ location _, resolves, branches⟩
  split at ran
  next member =>
    exact placed _ _ _ ran (by simp [Repository.resolves, member]) fun _ there => Or.inl there
  next =>
    split at ran
    next commit =>
      exact placed _ _ _ ran (by simp [Repository.resolves, commit]) fun _ there => Or.inl there
    next =>
      split at ran
      · refine placed _ _ _ ran ?_ ?_
        · simp [Repository.resolves, mem_addBranch_self]
        · intro name there
          rw [Repository.addBranch] at there
          split at there
          · exact Or.inl there
          · simpa using there
      · cases ran

theorem checkoutNew_of_placed {path : Path} {spared : List BranchName} {before : World Location}
    (placed : Placed tree repoPath path location branch spared before world)
    (known : world.repositories location = some repository) (fresh : name ∉ repository.branches)
    (resolves : repository.resolves start = true) :
    ∃ next, Git.checkoutNew tree path name start world = .ok () next := by
  have found := World.repositoryAt_eq_some_iff.mpr ⟨placed.owned, known⟩
  rcases placed.entry with ⟨content, entry⟩
  rw [World.entryAt] at entry
  rw [Git.checkoutNew, Git.inRepository_of_some _ found, if_neg fresh, resolves]
  simp only [entry, Bool.not_true, Bool.false_eq_true, if_false]
  exact ⟨_, rfl⟩

end Git

namespace WorktreeProvider

variable (provider : WorktreeProvider Location) (outside : Outside)

/-- The review branch of a fork's PR can be checked out at a commit, or it does not get
that far. -/
def ChecksOut (repoPath : Path) (prNumber sha : List Char) (world : World Location) : Prop :=
  outside.git .fetch ≠ none ∨ outside.git .add ≠ none ∨
    (outside.git .checkout = none ∧ sha ≠ reviewBranch prNumber ∧
      ∀ location, world.ownerAt (provider.tree.locate repoPath) = some location →
        reviewBranch prNumber ∉ world.branchesOf location)

variable {error : IsolationError} {final world : World Location} {repoPath worktreePath : Path}

theorem placed_of_staleRetry_failed {location : Location} {branch : Option BranchName}
    {name : BranchName} {sha : List Char} {before : World Location}
    (placed : Placed provider.tree repoPath worktreePath location branch [name] before world)
    (failed : (createBranchWithStaleRetry provider outside repoPath name
      (git outside .checkout worktreePath arguments
        (Git.checkoutNew provider.tree worktreePath name sha))
      (git outside .retry worktreePath arguments
        (Git.checkoutNew provider.tree worktreePath name sha))).run world = .error error final) :
    ∃ moved, Placed provider.tree repoPath worktreePath location moved [name] before final := by
  rcases unlessExists_eq_error failed with ⟨message, next, first, rfl | again⟩
  · exact placed_of_checkoutNew_failed placed first
  · rcases placed_of_checkoutNew_failed placed first with ⟨moved, attempted⟩
    have deletes := leads_execFileAsync (Git.keepsTo_branchDelete provider.tree repoPath name)
      gitOperationTimeoutMs (outside.git .deleteStale)
      ("-C".toList :: repoPath :: ["branch".toList, "-D".toList, name]) next
    rw [← git] at deletes
    rcases bind_eq_error.mp again with deleting | ⟨_, deleted, deleting, retrying⟩
    · rcases orOther_eq_error deleting with ⟨message, deleting⟩
      rw [deleting] at deletes
      exact ⟨moved, attempted.then_branchesOnly (deletes.only location attempted.owner)⟩
    · rw [orOther_eq_ok.mp deleting] at deletes
      rcases orOther_eq_error retrying with ⟨message, retrying⟩
      exact placed_of_checkoutNew_failed
        (attempted.then_branchesOnly (deletes.only location attempted.owner)) retrying

theorem tried_createFromForkPr_sha {prNumber sha : List Char}
    (failed : (createFromForkPr provider outside repoPath worktreePath prNumber (some sha)).run
      world = .error error final) :
    Tried provider.tree repoPath worktreePath [reviewBranch prNumber]
      (AddsCleanly outside ∧ ChecksOut provider outside repoPath prNumber sha world) world
      final := by
  have fetches := leads_execFileAsync
    (Git.keepsTo_fetch provider.tree repoPath [reviewBranch prNumber]
      ("pull/".toList ++ prNumber ++ "/head".toList))
    gitOperationTimeoutMs (outside.git .fetch)
    ("-C".toList :: repoPath :: ["fetch".toList, "origin".toList,
      "pull/".toList ++ prNumber ++ "/head".toList]) world
  rw [← git] at fetches
  rw [createFromForkPr] at failed
  rcases bind_eq_error.mp failed with fetching | ⟨_, fetched, fetching, failed⟩
  · rcases orOther_eq_error fetching with ⟨message, fetching⟩
    rw [fetching] at fetches
    exact Or.inl fetches
  · rw [orOther_eq_ok.mp fetching, Outcome.final_ok] at fetches
    rcases execFileAsync_eq_ok.mp (orOther_eq_ok.mp fetching) with ⟨fetchUnhurt, fetching⟩
    rcases bind_eq_error.mp failed with adding | ⟨_, added, adding, failed⟩
    · rcases orOther_eq_error adding with ⟨message, adding⟩
      rcases tried_add provider outside [reviewBranch prNumber] (Or.inl rfl) adding with
        keeps | ⟨unclean, -, placed⟩
      · exact Or.inl (IsTrans.trans _ _ _ fetches keeps)
      · exact Or.inr ⟨fun clean => unclean clean.1, placed.after_keepsTo fetches⟩
    · rcases execFileAsync_eq_ok.mp (orOther_eq_ok.mp adding) with ⟨addUnhurt, adding⟩
      rcases Git.placed_worktreeAdd adding with ⟨location, repository, found, placed⟩
      have owner := (World.repositoryAt_eq_some_iff.mp found).1
      rcases placed_of_staleRetry_failed provider outside (placed.mono _) failed with
        ⟨moved, remains⟩
      right
      refine ⟨?_, PlacedSome.after_keepsTo fetches ⟨location, moved, owner, remains⟩⟩
      intro clean
      rcases clean.2 with hurt | hurt | ⟨unhurt, different, fresh⟩
      · exact hurt fetchUnhurt
      · exact hurt addUnhurt
      · -- The checkout is free to succeed, so it has not failed.
        rcases Git.resolves_of_worktreeAdd owner adding with
          ⟨repository, known, resolves, branches⟩
        have unknown : reviewBranch prNumber ∉ repository.branches := by
          intro there
          rcases branches _ there with old | same
          · rw [Git.branchesOf_fetch fetching] at old
            rw [fetches.ownerAt_eq] at owner
            exact fresh location owner old
          · exact different same.symm
        rcases Git.checkoutNew_of_placed placed known unknown resolves with ⟨next, checked⟩
        rcases unlessExists_eq_error failed with ⟨message, next', first, -⟩
        rcases execFileAsync_eq_error first with ⟨-, refusal, refused⟩ | ⟨outer, given, -⟩
        · cases checked.symm.trans refused
        · rw [unhurt] at given
          cases given

theorem tried_createFromForkPr_fetched {prNumber : List Char}
    (failed : (createFromForkPr provider outside repoPath worktreePath prNumber none).run world =
      .error error final) :
    Tried provider.tree repoPath worktreePath [reviewBranch prNumber] (AddsCleanly outside) world
      final := by
  have fetches : ∀ site arguments remote, Leads
      (KeepsTo provider.tree repoPath [reviewBranch prNumber])
      (git outside site repoPath arguments
        (Git.fetchInto provider.tree repoPath remote (reviewBranch prNumber))) :=
    fun site arguments remote => leads_execFileAsync
      (Git.keepsTo_fetchInto provider.tree repoPath _ remote _) _ _ _
  have retries : ∀ arguments remote, Leads
      (KeepsTo provider.tree repoPath [reviewBranch prNumber])
      (createBranchWithStaleRetry provider outside repoPath (reviewBranch prNumber)
        (git outside .fetch repoPath arguments
          (Git.fetchInto provider.tree repoPath remote (reviewBranch prNumber)))
        (git outside .retry repoPath arguments
          (Git.fetchInto provider.tree repoPath remote (reviewBranch prNumber)))) := by
    intro arguments remote
    refine leads_unlessExists (fetches _ _ _) ?_
    refine leads_bind (leads_mapError _ (leads_execFileAsync
      (Git.keepsTo_branchDelete provider.tree repoPath _) _ _ _)) ?_
    intro _
    exact leads_mapError _ (fetches _ _ _)
  rw [createFromForkPr] at failed
  rcases bind_eq_error.mp failed with fetching | ⟨_, between, fetching, adding⟩
  · exact Or.inl ((retries _ _).of_error fetching)
  · rcases orOther_eq_error adding with ⟨message, adding⟩
    apply Tried.after_keepsTo ((retries _ _).of_ok fetching)
    rcases tried_add provider outside [reviewBranch prNumber] (Or.inl rfl) adding with
      keeps | ⟨unclean, -, placed⟩
    · exact Or.inl keeps
    · exact Or.inr ⟨unclean, placed⟩

/-! ## Calls that leave nothing -/

structure CleansUp (repoPath worktreePath : Path) (world : World Location) : Prop where
  seen : outside.file .leftover = none
  removes : ∀ fault, outside.git .removeLeftover = some fault → fault.acted = true
  plain : ∀ location, world.ownerAt (provider.tree.locate repoPath) = some location →
    location ≠ provider.tree.locate worktreePath ∧
      ∀ revision, world.modulesOf location revision = false

def InitializesSubmodules (repoPath : Path) (config : Option WorktreeCreateConfig)
    (world : World Location) : Prop :=
  config.all (·.initSubmodules ≠ some false) = true →
    outside.file .gitmodules = none ∧
      (outside.git .updateSubmodules = none ∨
        ∀ location, world.ownerAt (provider.tree.locate repoPath) = some location →
          ∀ revision, world.modulesOf location revision = false)

def LeavesNoPart (request : IsolationRequest) (worktreePath : Path) (world : World Location) :
    Prop :=
  match request with
  | .pr base identifier _ prSha isForkPr =>
      (AddsCleanly outside ∧ (isForkPr = true → ∀ sha, prSha = some sha →
        ChecksOut provider outside base.canonicalRepoPath identifier sha world)) ∨
      CleansUp provider outside base.canonicalRepoPath worktreePath world
  | _ => AddsCleanly outside

end WorktreeProvider

end HarnessAgent
