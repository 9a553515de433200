import HarnessAgent.Isolation.HalfInitialized

/-! # Creating again after a failure

What is in the place of a worktree after a call of `create` that failed, and after any
number of calls for the same request.
-/

namespace HarnessAgent

open LexicalPath StatefulRun

variable {Location : Type} [DecidableEq Location]

namespace WorktreeProvider

variable {provider : WorktreeProvider Location} {outside : Outside}

/-! ## Conditions before and after making room -/

section

variable {worktreePath repoPath : Path} {before after : World Location}

omit [DecidableEq Location] in
theorem branchesOf_of_cleared (cleared : Cleared provider.tree worktreePath before after)
    (location : Location) : after.branchesOf location = before.branchesOf location := by
  rw [World.branchesOf, World.branchesOf, cleared.repositories]

omit [DecidableEq Location] in
theorem modulesOf_of_cleared (cleared : Cleared provider.tree worktreePath before after)
    (location : Location) (revision : List Char) :
    after.modulesOf location revision = before.modulesOf location revision := by
  rw [World.modulesOf, World.modulesOf, cleared.repositories]

omit [DecidableEq Location] in
theorem ChecksOut.after_cleared {prNumber sha : List Char}
    (cleared : Cleared provider.tree worktreePath before after)
    (checksOut : ChecksOut provider outside repoPath prNumber sha before) :
    ChecksOut provider outside repoPath prNumber sha after := by
  rcases checksOut with hurt | hurt | ⟨unhurt, different, fresh⟩
  · exact Or.inl hurt
  · exact Or.inr (Or.inl hurt)
  · refine Or.inr (Or.inr ⟨unhurt, different, ?_⟩)
    intro location owner
    rw [branchesOf_of_cleared cleared]
    exact fresh location (cleared.owners _ _ owner)

omit [DecidableEq Location] in
theorem CleansUp.after_cleared (cleared : Cleared provider.tree worktreePath before after)
    (cleans : CleansUp provider outside repoPath worktreePath before) :
    CleansUp provider outside repoPath worktreePath after where
  seen := cleans.seen
  removes := cleans.removes
  plain := by
    intro location owner
    rcases cleans.plain location (cleared.owners _ _ owner) with ⟨apart, without⟩
    refine ⟨apart, ?_⟩
    intro revision
    rw [modulesOf_of_cleared cleared]
    exact without revision

omit [DecidableEq Location] in
theorem LeavesNoPart.after_cleared {request : IsolationRequest}
    (cleared : Cleared provider.tree worktreePath before after)
    (leaves : LeavesNoPart provider outside request worktreePath before) :
    LeavesNoPart provider outside request worktreePath after := by
  cases request with
  | pr base identifier prBranch prSha isForkPr =>
      rcases leaves with ⟨adds, checksOut⟩ | cleans
      · exact Or.inl ⟨adds, fun fork sha given =>
          (checksOut fork sha given).after_cleared cleared⟩
      · exact Or.inr (cleans.after_cleared cleared)
  | issue base identifier => exact leaves
  | review base identifier => exact leaves
  | thread base identifier => exact leaves
  | task base identifier fromBranch => exact leaves

end

/-! ## Calls that fail -/

section

variable {repoPath worktreePath : Path} {world final : World Location} {error : IsolationError}
  {before : World Location} {spared : List BranchName}

omit [DecidableEq Location] in
theorem KeepsTo.leavesNone {tree : FileTree Location} {after : World Location}
    (keeps : KeepsTo tree repoPath spared before after) (path : Path) :
    LeavesNone tree path before after := by
  intro _
  rw [keeps.directories]

theorem leavesNone_cleanOrphanWorktree (repoPath worktreePath : Path) (world : World Location) :
    LeavesNone provider.tree worktreePath world
      (cleanOrphanWorktreeIfExists provider outside repoPath worktreePath world) :=
  cleanOrphanWorktree_leads provider outside
    (fun world target => leavesNone_removeTree provider.tree worktreePath target world)
    (fun _ _ _ _ => rfl) repoPath worktreePath world

theorem hasEntry_cleanOrphanWorktree (named : worktreePath ≠ []) (rooted : repoPath ≠ [])
    (cleans : CleansUp provider outside repoPath worktreePath before)
    (placed : PlacedSome provider.tree repoPath worktreePath spared before world) :
    (cleanOrphanWorktreeIfExists provider outside repoPath worktreePath world).hasEntry
      (provider.tree.locate worktreePath) = false := by
  rcases placed with ⟨location, branch, owner, placed⟩
  rcases cleans.plain location owner with ⟨apart, without⟩
  rcases placed.known with ⟨repository, known⟩
  have present : worktreeExists provider.tree (outside.file .leftover) worktreePath world =
      true := by
    rcases placed.entry with ⟨content, entry⟩
    rw [worktreeExists, cleans.seen, World.hasEntry_eq, entry]
    rfl
  have plain : world.modulesIn (provider.tree.locate worktreePath) = false := by
    cases modules : world.modulesIn (provider.tree.locate worktreePath) with
    | false => rfl
    | true =>
        rcases placed.modules modules with ⟨revision, has⟩
        rw [without revision] at has
        cases has
  have removed := @worktreeRemove_of_placed _ _ _ _ _ _ _ _ false _ _ _ placed apart known
    fun _ => plain
  have gone := @withoutWorktree_within _ _ provider.tree (provider.tree.locate worktreePath)
    location (provider.tree.locate worktreePath) repository world (provider.tree.within_self _)
  rw [cleanOrphanWorktreeIfExists, if_neg (by simp [named, rooted]), if_pos present, World.hasEntry]
  rw [execFileAsync]
  dsimp only
  cases fault : outside.git .removeLeftover with
  | none =>
      dsimp only
      rw [removed, Outcome.final_ok, gone]
      rfl
  | some fault' =>
      dsimp only
      rw [cleans.removes fault' fault, if_pos rfl, Outcome.final_error, removed, Outcome.final_ok,
        gone]
      rfl

theorem tried_createFromPr_commands {base : IsolationRequestBase} {identifier : List Char}
    {prBranch : BranchName} {prSha : Option (List Char)} {isForkPr : Bool}
    (failed : (if !isForkPr then
        createFromSameRepoPr provider outside base.canonicalRepoPath worktreePath prBranch
      else createFromForkPr provider outside base.canonicalRepoPath worktreePath identifier
        prSha).run world = .error error final) :
    ∃ spared, Tried provider.tree base.canonicalRepoPath worktreePath spared
      (AddsCleanly outside ∧ (isForkPr = true → ∀ sha, prSha = some sha →
        ChecksOut provider outside base.canonicalRepoPath identifier sha world)) world final := by
  cases isForkPr with
  | false =>
      rcases tried_createFromSameRepoPr provider outside failed with keeps | ⟨unclean, placed⟩
      · exact ⟨[], Or.inl keeps⟩
      · exact ⟨[], Or.inr ⟨fun clean => unclean clean.1, placed⟩⟩
  | true =>
      cases prSha with
      | none =>
          rcases tried_createFromForkPr_fetched provider outside failed with
            keeps | ⟨unclean, placed⟩
          · exact ⟨[reviewBranch identifier], Or.inl keeps⟩
          · exact ⟨[reviewBranch identifier], Or.inr ⟨fun clean => unclean clean.1, placed⟩⟩
      | some sha =>
          rcases tried_createFromForkPr_sha provider outside failed with keeps | ⟨unclean, placed⟩
          · exact ⟨[reviewBranch identifier], Or.inl keeps⟩
          · exact ⟨[reviewBranch identifier],
              Or.inr ⟨fun clean => unclean ⟨clean.1, clean.2 rfl sha rfl⟩, placed⟩⟩

theorem leavesNone_createFromPr {base : IsolationRequestBase} {identifier : List Char}
    {prBranch : BranchName} {prSha : Option (List Char)} {isForkPr : Bool}
    (named : worktreePath ≠ []) (rooted : base.canonicalRepoPath ≠ [])
    (leaves : LeavesNoPart provider outside (.pr base identifier prBranch prSha isForkPr)
      worktreePath world)
    (failed : (createFromPr provider outside base identifier prBranch prSha isForkPr
      worktreePath).run world = .error error final) :
    LeavesNone provider.tree worktreePath world final := by
  have cleans := leads_cleanOrphanDirectory provider outside worktreePath
    (leavesNone_removeTree provider.tree worktreePath _)
  have clears := cleared_cleanOrphanDirectory provider outside worktreePath
  rw [createFromPr] at failed
  rcases bind_eq_error.mp failed with cleaning | ⟨_, cleaned, cleaning, failed⟩
  · exact cleans.of_error cleaning
  · apply IsTrans.trans _ _ _ (cleans.of_ok cleaning)
    have leaves := leaves.after_cleared (clears.of_ok cleaning)
    dsimp only at failed
    split at failed
    · cases failed
    next refusal next failed' =>
      cases failed
      have removes := @leavesNone_cleanOrphanWorktree _ _ provider outside base.canonicalRepoPath
        worktreePath next
      rcases tried_createFromPr_commands failed' with ⟨spared, keeps | ⟨unclean, placed⟩⟩
      · exact IsTrans.trans _ _ _ (KeepsTo.leavesNone keeps worktreePath) removes
      · rcases leaves with clean | cleansUp
        · exact absurd clean unclean
        · intro present
          rw [hasEntry_cleanOrphanWorktree named rooted cleansUp placed] at present
          cases present

variable {request : IsolationRequest}

theorem leavesNone_createNewBranch (adds : AddsCleanly outside)
    (failed : (createNewBranch provider outside request repoPath worktreePath branchName
      baseBranch).run world = .error error final) :
    LeavesNone provider.tree worktreePath world final := by
  rcases tried_createNewBranch provider outside failed with
    ⟨cleaned, cleans, keeps | ⟨unclean, -⟩⟩
  · exact IsTrans.trans _ _ _ cleans (KeepsTo.leavesNone keeps worktreePath)
  · exact absurd adds unclean

theorem leavesNone_addWorktree (named : worktreePath ≠ [])
    (rooted : request.base.canonicalRepoPath ≠ [])
    (leaves : LeavesNoPart provider outside request worktreePath world)
    (failed : (addWorktree provider outside request worktreePath branchName baseBranch).run world =
      .error error final) : LeavesNone provider.tree worktreePath world final := by
  cases request with
  | pr base identifier prBranch prSha isForkPr =>
      exact leavesNone_createFromPr named rooted leaves failed
  | issue base identifier => exact leavesNone_createNewBranch leaves failed
  | review base identifier => exact leavesNone_createNewBranch leaves failed
  | thread base identifier => exact leavesNone_createNewBranch leaves failed
  | task base identifier fromBranch => exact leavesNone_createNewBranch leaves failed

variable {config : Option WorktreeCreateConfig}

theorem initSubmodules_ne_error
    (initializes : InitializesSubmodules provider outside repoPath config before)
    (owner : before.ownerAt (provider.tree.locate repoPath) = some location)
    (placed : Placed provider.tree repoPath worktreePath location branch spared before world) :
    (initSubmodulesUnlessOptedOut provider outside worktreePath config).run world ≠
      .error error final := by
  intro failed
  rw [initSubmodulesUnlessOptedOut] at failed
  split at failed
  next opted =>
    rcases initializes opted with ⟨readable, updates⟩
    rw [initSubmodules, readable] at failed
    dsimp only at failed
    split at failed
    next has =>
      rcases updates with undisturbed | without
      · -- Git finds the repository from the worktree, so the update is made.
        rcases placed.known with ⟨repository, known⟩
        have found := World.repositoryAt_eq_some_iff.mpr ⟨placed.owned, known⟩
        rw [StatefulRun.mapError, undisturbed, execFileAsync] at failed
        dsimp only at failed
        rw [Git.submoduleUpdate, Git.inRepository_of_some _ found] at failed
        cases there : world.directories (provider.tree.locate worktreePath) with
        | none =>
            rw [there] at has
            cases has
        | some directory =>
            rw [there] at failed
            cases failed
      · rcases placed.modules has with ⟨revision, modules⟩
        rw [without location owner revision] at modules
        cases modules
    next => cases failed
  next => cases failed

omit [DecidableEq Location] in
theorem InitializesSubmodules.after_sameGit {after : World Location} (same : SameGit before after)
    (initializes : InitializesSubmodules provider outside repoPath config before) :
    InitializesSubmodules provider outside repoPath config after := by
  intro opted
  rcases initializes opted with ⟨readable, updates⟩
  refine ⟨readable, ?_⟩
  rcases updates with undisturbed | without
  · exact Or.inl undisturbed
  · right
    intro location owner revision
    rw [same.owners] at owner
    rw [World.modulesOf, same.repositories]
    exact without location owner revision

theorem leavesNone_createWorktree (named : worktreePath ≠ [])
    (rooted : request.base.canonicalRepoPath ≠ [])
    (initializes : InitializesSubmodules provider outside request.base.canonicalRepoPath config
      world) (leaves : LeavesNoPart provider outside request worktreePath world)
    (failed : (createWorktree provider outside request worktreePath
      (branchNameOf provider request) config).run world = .error error final) :
    LeavesNone provider.tree worktreePath world final := by
  have ends := createWorktree_ends provider outside request worktreePath
    (branchNameOf provider request) config world
  rw [failed] at ends
  cases ends with
  | refused => exact Std.Refl.refl world
  | @notAdded baseBranch baseDir _ _ adding =>
      have parents := sameGit_makeParents provider.tree (provider.tree.locate baseDir) world
      exact IsTrans.trans _ _ _ (leavesNone_makeParents provider.tree worktreePath _ world)
        (leavesNone_addWorktree named rooted
          (leaves.after_cleared (parents.cleared provider.tree worktreePath)) adding)
  | @notInitialized baseBranch baseDir added _ _ adding filling =>
      have parents := sameGit_makeParents provider.tree (provider.tree.locate baseDir) world
      rcases placedFor_addWorktree provider outside adding with ⟨location, branch, owner, placed, -⟩
      exact absurd filling
        (initSubmodules_ne_error (initializes.after_sameGit parents) owner placed)

end

/-! ## Calls for one request -/

omit [DecidableEq Location] in
theorem worktreePathOf_ne_nil {request : IsolationRequest} {worktreePath : Path}
    (path : worktreePathOf provider request = .ok worktreePath) :
    worktreePath ≠ [] ∧ request.base.canonicalRepoPath ≠ [] := by
  rw [worktreePathOf, getWorktreePath] at path
  cases accepted : baseDirectory provider.around request (configOf provider request) with
  | error error =>
      rw [accepted] at path
      cases path
  | ok baseDir =>
      rw [accepted] at path
      cases path
      refine ⟨?_, (baseDirectory_eq_ok accepted).1⟩
      cases absolute : isAbsolute (branchNameOf provider request) with
      | false => exact join_ne_nil (baseDirectory_ne_nil accepted) _ absolute
      | true =>
          intro empty
          rw [join, absolute, Bool.true_or, if_pos rfl] at empty
          rw [empty] at absolute
          cases absolute

section

variable (provider : WorktreeProvider Location) (request : IsolationRequest)

/-- Something holds of every call in a sequence of calls for a request, each of which
starts where the one before has ended. -/
def AllCalls (property : Outside → World Location → Prop) : List Outside → World Location → Prop
  | [], _ => True
  | outside :: rest, world =>
      property outside world ∧
        AllCalls property rest ((create provider outside request).run world).final

/-- A call that finds no worktree in the place initialises the submodules of the one it
makes, copies the configured files, and leaves no part of one behind. -/
def Tidy (outside : Outside) (world : World Location) : Prop :=
  ∀ worktreePath, worktreePathOf provider request = .ok worktreePath →
    worktreeExists provider.tree (outside.file .findWorktree) worktreePath world = false →
    InitializesSubmodules provider outside request.base.canonicalRepoPath
      (configOf provider request) world ∧
    CopiesFiles provider outside request.base.canonicalRepoPath worktreePath
      (configOf provider request) ∧
    LeavesNoPart provider outside request worktreePath world

/-- A call that fails leaves no new worktree in the place. The worktree of any other is
completely made, unless it was there from the start. -/
def Sound (start : World Location) (outside : Outside) (world : World Location) : Prop :=
  match (create provider outside request).run world with
  | .error _ final =>
      ∀ worktreePath, worktreePathOf provider request = .ok worktreePath →
        final.hasEntry (provider.tree.locate worktreePath) = true →
        world.hasEntry (provider.tree.locate worktreePath) = true
  | .ok env final =>
      start.hasEntry (provider.tree.locate env.workingPath) = true ∨
        ∃ directory, final.directories (provider.tree.locate env.workingPath) = some directory ∧
          Complete (configOf provider request) directory

def NoneHalfMade (start world : World Location) : Prop :=
  ∀ location, world.hasEntry location = true → start.hasEntry location = true ∨
    ∃ worktreePath directory, worktreePathOf provider request = .ok worktreePath ∧
      location = provider.tree.locate worktreePath ∧
      world.directories location = some directory ∧ Complete (configOf provider request) directory

variable {provider : WorktreeProvider Location} {request : IsolationRequest}

theorem NoneHalfMade.step {world final : World Location} {worktreePath : Path}
    (path : worktreePathOf provider request = .ok worktreePath)
    (holds : NoneHalfMade provider request start world)
    (only : OnlyNewAt provider.tree worktreePath world final)
    (place : LeavesNone provider.tree worktreePath world final ∨
      ∃ directory, final.directories (provider.tree.locate worktreePath) = some directory ∧
        Complete (configOf provider request) directory) :
    NoneHalfMade provider request start final := by
  intro location present
  by_cases here : location = provider.tree.locate worktreePath
  · rcases place with leaves | ⟨directory, there, complete⟩
    · rw [here] at present
      have same := leaves present
      rw [World.hasEntry, same] at present
      rcases holds _ present with old | ⟨other, directory, path', -, there, complete⟩
      · exact Or.inl (here ▸ old)
      · rw [← same] at there
        exact Or.inr ⟨worktreePath, directory, path, here, here ▸ there, complete⟩
    · exact Or.inr ⟨worktreePath, directory, path, here, here ▸ there, complete⟩
  · rcases holds location (only location here present) with
      old | ⟨other, directory, path', same, -, -⟩
    · exact Or.inl old
    · rw [path] at path'
      cases path'
      exact absurd same here

theorem create_step {world : World Location} (tidy : Tidy provider request outside world)
    (holds : NoneHalfMade provider request start world) :
    Sound provider request start outside world ∧
      NoneHalfMade provider request start ((create provider outside request).run world).final := by
  have adopted : ∀ existing, world.hasEntry (provider.tree.locate existing) = true →
      start.hasEntry (provider.tree.locate existing) = true ∨
        ∃ directory, world.directories (provider.tree.locate existing) = some directory ∧
          Complete (configOf provider request) directory := by
    intro existing present
    rcases holds _ present with old | ⟨-, directory, -, -, there, complete⟩
    · exact Or.inl old
    · exact Or.inr ⟨directory, there, complete⟩
  have ends := create_ends provider outside request world
  rw [Sound]
  generalize (create provider outside request).run world = outcome at ends
  cases ends with
  | refused error => exact ⟨fun _ _ present => present, holds⟩
  | @atPath worktreePath path present =>
      have entry : world.hasEntry (provider.tree.locate worktreePath) = true := by
        rw [worktreeExists, Bool.and_eq_true] at present
        exact present.2
      exact ⟨adopted worktreePath entry, holds⟩
  | byBranch path missing kind found present => exact ⟨adopted _ present, holds⟩
  | @failed worktreePath error final path missing unfound ran =>
      rcases tidy worktreePath path missing with ⟨initializes, -, leaves⟩
      rcases worktreePathOf_ne_nil path with ⟨named, rooted⟩
      have none := leavesNone_createWorktree named rooted initializes leaves ran
      have only := (onlyNewAt_createWorktree provider outside request worktreePath _ _).of_error ran
      refine ⟨?_, holds.step path only (Or.inl none)⟩
      intro other path' present
      rw [path] at path'
      cases path'
      have same := none present
      rw [World.hasEntry, same] at present
      exact present
  | @created worktreePath final path missing unfound ran =>
      have copies := (tidy worktreePath path missing).2.1
      have complete := complete_of_created provider outside ran copies
      have only := (onlyNewAt_createWorktree provider outside request worktreePath _ _).of_ok ran
      exact ⟨Or.inr complete, holds.step path only (Or.inr complete)⟩

/-- However often a worktree is created for a request, no call hands out one that an
earlier call has left half made, as long as every call is tidy. -/
theorem create_again_sound (provider : WorktreeProvider Location) (request : IsolationRequest)
    (start : World Location) (calls : List Outside)
    (tidy : AllCalls provider request (Tidy provider request) calls start) :
    AllCalls provider request (Sound provider request start) calls start := by
  have run : ∀ (calls : List Outside) (world : World Location),
      NoneHalfMade provider request start world →
      AllCalls provider request (Tidy provider request) calls world →
      AllCalls provider request (Sound provider request start) calls world := by
    intro calls
    induction calls with
    | nil => exact fun _ _ _ => trivial
    | cons outside rest induction =>
        intro world holds tidy
        rcases create_step tidy.1 holds with ⟨sound, onward⟩
        exact ⟨sound, induction _ onward tidy.2⟩
  exact run calls start (fun _ present => Or.inl present) tidy

end

end WorktreeProvider

namespace RepeatedCreate

def world : World Path where
  directories := BranchIdentity.world.directories
  repositories := fun path =>
    if path = "/srv/app".toList then
      some {
        head := some "main".toList
        branches := ["main".toList]
        tracking := ["main".toList]
        remoteBranches := ["main".toList]
        modulesAt := fun _ => true }
    else none

def slow : Outside where
  git := fun site => if site = .updateSubmodules then some (.timeout false) else none
  sync := .ok "main".toList

def offline : Outside where
  sync := .error (.other "Failed to sync workspace with origin/main".toList)

end RepeatedCreate

open WorktreeProvider

theorem create_again_sound_offline :
    AllCalls UnforcedDestroy.provider BranchIdentity.issue
      (Sound UnforcedDestroy.provider BranchIdentity.issue RepeatedCreate.world)
      [RepeatedCreate.offline, UnforcedDestroy.outside] RepeatedCreate.world := by
  have tidy : ∀ (outside : Outside) (world : World Path), outside.git = (fun _ => none) →
      outside.file = (fun _ => none) → outside.disk = .bare →
      Tidy UnforcedDestroy.provider BranchIdentity.issue outside world := by
    intro outside world gits files bare worktreePath path _
    have place : worktreePathOf UnforcedDestroy.provider BranchIdentity.issue =
        .ok Rollback.worktreePath := by decide
    cases place.symm.trans path
    refine ⟨?_, ?_, ?_⟩
    · intro _
      rw [gits, files]
      exact ⟨rfl, Or.inl rfl⟩
    · intro file member entry parsed
      have only : copyFiles UnforcedDestroy.provider
          (configOf UnforcedDestroy.provider BranchIdentity.issue)
          BranchIdentity.issue.base.canonicalRepoPath = [".archon".toList] := by decide
      rw [only] at member
      cases List.mem_singleton.mp member
      cases parsed
      rw [bare]
      exact ⟨by decide, by decide, Or.inl rfl⟩
    · intro site fault _ given
      rw [gits] at given
      cases given
  apply create_again_sound
  exact ⟨tidy _ _ rfl rfl rfl, tidy _ _ rfl rfl rfl, trivial⟩

/-- A call whose submodules are not initialised leaves its worktree, and the next call
hands that out. -/
theorem create_again_halfInitialized :
    ¬AllCalls UnforcedDestroy.provider BranchIdentity.issue
      (Sound UnforcedDestroy.provider BranchIdentity.issue RepeatedCreate.world)
      [RepeatedCreate.slow, UnforcedDestroy.outside] RepeatedCreate.world ∧
    ¬Sound UnforcedDestroy.provider BranchIdentity.issue RepeatedCreate.world
      UnforcedDestroy.outside
      ((create UnforcedDestroy.provider RepeatedCreate.slow BranchIdentity.issue).run
        RepeatedCreate.world).final := by
  have adopts : (match (create UnforcedDestroy.provider UnforcedDestroy.outside
      BranchIdentity.issue).run ((create UnforcedDestroy.provider RepeatedCreate.slow
        BranchIdentity.issue).run RepeatedCreate.world).final with
      | .ok env final =>
          decide (env.workingPath = Rollback.worktreePath) &&
            (final.directories Rollback.worktreePath).all fun directory => !directory.filesCopied
      | .error _ _ => false) = true := by decide
  have unsound : ¬Sound UnforcedDestroy.provider BranchIdentity.issue RepeatedCreate.world
      UnforcedDestroy.outside
      ((create UnforcedDestroy.provider RepeatedCreate.slow BranchIdentity.issue).run
        RepeatedCreate.world).final := by
    rw [Sound]
    cases ran : (create UnforcedDestroy.provider UnforcedDestroy.outside
        BranchIdentity.issue).run ((create UnforcedDestroy.provider RepeatedCreate.slow
          BranchIdentity.issue).run RepeatedCreate.world).final with
    | error error final =>
        rw [ran] at adopts
        cases adopts
    | ok env final =>
        rw [ran] at adopts
        dsimp only at adopts
        rw [Bool.and_eq_true, decide_eq_true_iff] at adopts
        rcases adopts with ⟨place, bare⟩
        dsimp only
        rw [place]
        intro sound
        rcases sound with old | ⟨directory, there, copied, -⟩
        · exact absurd old (by decide)
        · change final.directories Rollback.worktreePath = some directory at there
          rw [there, Option.all_some, copied] at bare
          cases bare
  exact ⟨fun sound => unsound sound.2.1, unsound⟩

end HarnessAgent
