import HarnessAgent.Isolation.BranchIdentity

/-! # Taking back an environment that is not recorded

If an environment cannot be recorded, it is destroyed again. What that takes away is
compared with what was there before the environment was asked for.
-/

namespace HarnessAgent

open LexicalPath StatefulRun WorktreeProvider IsolationResolver

variable {Location : Type} [DecidableEq Location]

structure Kept (before after : World Location) : Prop where
  entries : ∀ location, before.hasEntry location = true → after.hasEntry location = true
  worktrees : ∀ location, ∀ worktree ∈ before.worktreesOf location,
    before.hasEntry worktree.location = true →
    ∃ kept ∈ after.worktreesOf location, kept.location = worktree.location
  branches : ∀ location, ∀ name ∈ before.branchesOf location, name ∈ after.branchesOf location

omit [DecidableEq Location] in
theorem kept_refl (world : World Location) : Kept world world where
  entries := fun _ present => present
  worktrees := fun _ worktree member _ => ⟨worktree, member, rfl⟩
  branches := fun _ _ member => member

section

variable (provider : WorktreeProvider Location) (outside : Outside)

def RefusesRemoval (repoPath path : Path) (world : World Location) : Prop :=
  ∃ message, (gitWorktreeRemove provider outside repoPath path (some true)).run world =
      .error message world ∧
    isWorktreeMissingError message = false

structure Fresh (repoPath path : Path) (branch : BranchName) (world : World Location) : Prop where
  empty : ∀ other, provider.tree.within other (provider.tree.locate path) = true →
    world.hasEntry other = false
  named : ∀ location, world.ownerAt (provider.tree.locate repoPath) = some location →
    branch ∈ world.branchesOf location →
    Firm provider.tree (provider.tree.locate path) world location branch

/-- Taking back the environment of a request takes nothing that was there before. -/
def TakesOnlyNew (request : IsolationRequest) (world : World Location) : Prop :=
  ∀ env, environmentOf provider outside request world = some env →
    match env.metadata with
    | .adopted _ =>
        RefusesRemoval provider outside request.base.canonicalRepoPath env.workingPath world
    | .created =>
        Fresh provider request.base.canonicalRepoPath env.workingPath env.branchName world

def takeBackOptions (env : WorktreeEnvironment) (repoPath : Path) : DestroyOptions where
  force := some true
  branchName := some env.branchName
  canonicalRepoPath := some repoPath

/-! ## A new worktree -/

variable {provider}

variable {before : World Location} {branch : Option BranchName} {location : Location}
  {path repoPath : Path}

variable {name : BranchName}

theorem kept_of_fresh (fresh : Fresh provider repoPath path name before)
    (owner : before.ownerAt (provider.tree.locate repoPath) = some location)
    (placed : Placed provider.tree repoPath path location branch [] before between)
    (destroyed : Destroyed provider.tree repoPath (provider.tree.locate path) (some name) between
      after) : Kept before after := by
  have away : ∀ other, before.hasEntry other = true →
      provider.tree.within other (provider.tree.locate path) = false := by
    intro other present
    cases inside : provider.tree.within other (provider.tree.locate path) with
    | false => rfl
    | true =>
        rw [fresh.empty other inside] at present
        cases present
  refine ⟨?_, ?_, ?_⟩
  · intro other present
    have elsewhere := away other present
    rw [World.hasEntry_eq, destroyed.entries other elsewhere, ← World.hasEntry_eq,
      placed.hasEntry_eq elsewhere]
    exact present
  · intro other worktree member present
    have elsewhere := away worktree.location present
    refine ⟨worktree, ?_, rfl⟩
    apply destroyed.worktrees other worktree (placed.mem_worktreesOf member)
    apply placed.steady
    refine ⟨?_, Or.inr ⟨elsewhere, present⟩⟩
    intro same
    rw [same, provider.tree.within_self] at elsewhere
    cases elsewhere
  · intro other kept member
    apply destroyed.branches other kept (placed.mem_branchesOf member)
    by_cases here : other = location
    · right
      by_cases same : kept = name
      · right
        rw [here, same] at member ⊢
        exact placed.firm (fresh.named location owner member)
      · left
        intro given
        exact same (Option.some.inj given).symm
    · left
      rw [placed.owner]
      intro given
      exact here (Option.some.inj given).symm

/-! ## An adopted worktree -/

variable {world : World Location}

theorem destroy_of_refused (forced : options.force = some true)
    (given : options.canonicalRepoPath = some repoPath)
    (present : world.hasEntry (provider.tree.locate path) = true)
    (refuses : RefusesRemoval provider outside repoPath path world) :
    ((destroy provider outside path options).run world).final = world := by
  cases there : world.directories (provider.tree.locate path) with
  | none =>
      rw [World.hasEntry, there] at present
      cases present
  | some directory =>
      cases checked : outside.file .path with
      | some error =>
          rcases directoryExists_run_of_error provider.tree path world
            (Option.some_ne_none error) with ⟨failure, failed⟩
          rw [← checked] at failed
          rw [destroy, bind_of_error failed]
          rfl
      | none =>
          rcases refuses with ⟨message, answer, notMissing⟩
          rw [← forced] at answer
          have registered := removeRegistered_of_error answer
          rw [notMissing] at registered
          have removing : (removeWorktree provider outside repoPath path options.force {}).run
              world = .error (.other message) world := by
            rw [removeWorktree, bind_of_error registered]
          rw [destroy_run_of_there options checked there, repoPathOf, given]
          dsimp only
          rw [destroyIn, bind_of_error removing]
          rfl

/-! ## Taking back without disturbance -/

variable (provider)

/-- Nothing from outside interferes with taking an environment back, and the repository
is not in the place that is taken. -/
structure Undisturbed (repoPath path : Path) (world : World Location) : Prop where
  checked : outside.file .path = none
  rechecked : outside.file .remaining = none
  deletes : outside.file .removeRemaining = none
  removes : outside.git .remove = none
  prunes : outside.git .prune = none
  deletesBranch : outside.git .deleteBranch = none
  apart : ∀ location, world.ownerAt (provider.tree.locate repoPath) = some location →
    location ≠ provider.tree.locate path ∧
      provider.tree.within (provider.tree.locate repoPath) (provider.tree.locate path) = false

variable {provider} {outside}

theorem removeWorktree_of_removed (result : DestroyResult)
    (answer : (gitWorktreeRemove provider outside repoPath path force).run world = .ok () next)
    (gone : next.directories (provider.tree.locate path) = none)
    (rechecked : outside.file .remaining = none) :
    (removeWorktree provider outside repoPath path force result).run world =
      .ok { result with worktreeRemoved := true, directoryClean := true } next := by
  have registered : (removeRegistered provider outside repoPath path force).run world =
      .ok () next := by
    simp only [removeRegistered, answer]
  have remains := directoryExists_run provider.tree path next rechecked
  rw [gone, Option.isSome_none] at remains
  rw [removeWorktree, bind_of_ok registered]
  dsimp only
  rw [bind_of_ok remains]
  rfl

omit [DecidableEq Location] in
theorem execFileAsync_undisturbed {timeoutMs : Nat} {fault : Option Fault}
    {arguments : List (List Char)} {command : GitCommand Location} (world : World Location)
    (undisturbed : fault = none) :
    ((execFileAsync timeoutMs fault arguments command).run world).final =
      (command world).final := by
  subst undisturbed
  cases answer : command world with
  | ok value next => simp [execFileAsync, answer]
  | error refusal next => simp [execFileAsync, answer]

theorem withoutWorktree_within {tree : FileTree Location} {target location other : Location}
    {repository : Repository Location} {world : World Location}
    (inside : tree.within other target = true) :
    (Git.withoutWorktree tree target location repository world).directories other = none := by
  simp [Git.withoutWorktree, World.setRepository, World.removeTree, inside]

theorem gitWorktreeRemove_ends (repoPath path : Path) (force : Option Bool)
    (world : World Location) (undisturbed : outside.git .remove = none) :
    (∃ message, (gitWorktreeRemove provider outside repoPath path force).run world =
      .error message world) ∨
      ∃ location repository,
        (gitWorktreeRemove provider outside repoPath path force).run world =
          .ok () (Git.withoutWorktree provider.tree (provider.tree.locate path) location repository
            world) := by
  rw [gitWorktreeRemove, git]
  rcases Git.worktreeRemove_eq provider.tree repoPath path (force = some true) world with
    ⟨refusal, refused⟩ | ⟨location, repository, -, removed⟩
  · exact Or.inl (execFileAsync_of_refused refused _ _ _)
  · exact Or.inr ⟨location, repository, execFileAsync_eq_ok.mpr ⟨undisturbed, removed⟩⟩

theorem refuses_of_kept (undisturbed : Undisturbed provider outside repoPath path world)
    (forced : options.force = some true) (given : options.canonicalRepoPath = some repoPath)
    (present : world.hasEntry (provider.tree.locate path) = true)
    (kept : ((destroy provider outside path options).run world).final.hasEntry
      (provider.tree.locate path) = true) :
    RefusesRemoval provider outside repoPath path world := by
  cases there : world.directories (provider.tree.locate path) with
  | none =>
      rw [World.hasEntry, there] at present
      cases present
  | some directory =>
      have stays : ((removeWorktree provider outside repoPath path (some true) {}).run
          world).final.directories (provider.tree.locate path) ≠ none := by
        intro gone
        rw [destroy_run_of_there options undisturbed.checked there, repoPathOf, given] at kept
        dsimp only at kept
        rw [World.hasEntry, directories_destroyIn, forced, gone] at kept
        cases kept
      rcases gitWorktreeRemove_ends repoPath path (some true) world undisturbed.removes with
        ⟨message, answer⟩ | ⟨location, repository, answer⟩
      · refine ⟨message, answer, ?_⟩
        cases missing : isWorktreeMissingError message with
        | false => rfl
        | true =>
            exfalso
            apply stays
            apply (directories_removeWorktree_of_error {} answer there).mpr
            refine ⟨missing, undisturbed.rechecked, ?_⟩
            intro error failing
            rw [undisturbed.deletes] at failing
            cases failing
      · exfalso
        apply stays
        have gone := @withoutWorktree_within _ _ provider.tree (provider.tree.locate path) location
          (provider.tree.locate path) repository world (provider.tree.within_self _)
        rw [removeWorktree_of_removed {} answer gone undisturbed.rechecked]
        exact gone

theorem worktreeRemove_of_placed {tree : FileTree Location} {repoPath path : Path}
    {location : Location} {branch : Option BranchName} {spared : List BranchName} {force : Bool}
    {before world : World Location} {repository : Repository Location}
    (placed : Placed tree repoPath path location branch spared before world)
    (apart : location ≠ tree.locate path) (known : world.repositories location = some repository)
    (plain : force = false → world.modulesIn (tree.locate path) = false) :
    Git.worktreeRemove tree repoPath path force world =
      .ok () (Git.withoutWorktree tree (tree.locate path) location repository world) := by
  have found := World.repositoryAt_eq_some_iff.mpr ⟨placed.owner, known⟩
  have registered := placed.find?_worktrees known
  rcases placed.entry with ⟨content, entry⟩
  have owned := placed.owned
  have unmodified := placed.unmodified
  rw [World.entryAt] at entry
  rw [World.ownerAt] at owned
  rw [World.modifiedAt] at unmodified
  rw [World.modulesIn] at plain
  cases there : world.directories (tree.locate path) with
  | none =>
      rw [there] at entry
      cases entry
  | some directory =>
      rw [there, Option.bind_some] at entry owned
      rw [there, Option.any_some] at plain unmodified
      have modules : (!force && directory.hasGitmodules) = false := by
        cases force with
        | true => rfl
        | false => simpa using plain rfl
      rw [Git.worktreeRemove, Git.inRepository_of_some _ found]
      simp only [registered, there, entry, owned, Git.withoutWorktree, apart.symm, if_false,
        Option.isNone_some, Bool.false_eq_true, ne_eq, not_true_eq_false, modules, unmodified,
        Bool.and_false]

theorem pruneAndVerify_run (repoPath path : Path) (result : DestroyResult)
    (world : World Location) (undisturbed : outside.git .prune = none) :
    ∃ verified, (pruneAndVerify provider outside repoPath path result).run world =
      .ok verified (Git.worktreePrune provider.tree repoPath world).final := by
  have pruned := @execFileAsync_undisturbed _ 15000 _
    ["-C".toList, repoPath, "worktree".toList, "prune".toList]
    (Git.worktreePrune provider.tree repoPath) world undisturbed
  rw [pruneAndVerify]
  dsimp only
  rw [pruned]
  split
  · exact ⟨_, rfl⟩
  · exact ⟨_, rfl⟩

theorem deleteBranchTracked_run (repoPath : Path) (name : BranchName) (result : DestroyResult)
    (world : World Location) (undisturbed : outside.git .deleteBranch = none) :
    ∃ tracked, (deleteBranchTracked provider outside repoPath name result).run world =
      .ok tracked (Git.branchDelete provider.tree repoPath name world).final := by
  have deleted := @execFileAsync_undisturbed _ gitOperationTimeoutMs _
    ("-C".toList :: repoPath :: ["branch".toList, "-D".toList, name])
    (Git.branchDelete provider.tree repoPath name) world undisturbed
  rw [← git] at deleted
  rw [deleteBranchTracked]
  dsimp only
  rw [← deleted]
  split
  next ran =>
    rw [ran]
    exact ⟨_, rfl⟩
  next ran =>
    rw [ran]
    split
    · exact ⟨_, rfl⟩
    · split
      · exact ⟨_, rfl⟩
      · exact ⟨_, rfl⟩

variable {env : WorktreeEnvironment} {repository : Repository Location} {spared : List BranchName}

theorem destroy_of_placed
    (undisturbed : Undisturbed provider outside repoPath env.workingPath before)
    (owner : before.ownerAt (provider.tree.locate repoPath) = some location)
    (placed : Placed provider.tree repoPath env.workingPath location branch spared before world)
    (known : world.repositories location = some repository) :
    ((destroy provider outside env.workingPath (takeBackOptions env repoPath)).run world).final =
      (Git.branchDelete provider.tree repoPath env.branchName
        (Git.worktreePrune provider.tree repoPath
          (Git.withoutWorktree provider.tree (provider.tree.locate env.workingPath) location
            repository world)).final).final := by
  have removed := worktreeRemove_of_placed placed (undisturbed.apart location owner).1 known
    fun (unforced : true = false) => by cases unforced
  have answer : (gitWorktreeRemove provider outside repoPath env.workingPath (some true)).run world =
      .ok () (Git.withoutWorktree provider.tree (provider.tree.locate env.workingPath) location
        repository world) := by
    rw [gitWorktreeRemove, git]
    exact execFileAsync_eq_ok.mpr ⟨undisturbed.removes, removed⟩
  have gone := @withoutWorktree_within _ _ provider.tree
    (provider.tree.locate env.workingPath) location (provider.tree.locate env.workingPath)
    repository world (provider.tree.within_self _)
  have removing := removeWorktree_of_removed {} answer gone undisturbed.rechecked
  rcases placed.entry with ⟨content, entry⟩
  cases there : world.directories (provider.tree.locate env.workingPath) with
  | none =>
      rw [World.entryAt, there] at entry
      cases entry
  | some directory =>
      rw [destroy_run_of_there _ undisturbed.checked there, repoPathOf, takeBackOptions]
      dsimp only
      rw [destroyIn, bind_of_ok removing]
      rcases @pruneAndVerify_run _ _ provider outside repoPath env.workingPath _ _
        undisturbed.prunes with ⟨verified, pruning⟩
      rw [bind_of_ok pruning, deleteBranches]
      dsimp only
      rcases @deleteBranchTracked_run _ _ provider outside repoPath env.branchName verified _
        undisturbed.deletesBranch with ⟨tracked, deleting⟩
      rw [bind_of_ok deleting]
      rfl

variable {tree : FileTree Location}

theorem not_mem_branchDelete
    (found : world.repositoryAt tree repoPath = some (location, repository))
    (free : repository.holder location name = none) :
    name ∉ (Git.branchDelete tree repoPath name world).final.branchesOf location := by
  have known := (World.repositoryAt_eq_some_iff.mp found).2
  rw [Git.branchDelete, Git.inRepository_of_some _ found, free]
  dsimp only
  split
  · simp [World.branchesOf, World.setRepository]
  next absent => simpa [World.branchesOf, known] using absent

/-- After a new worktree has been removed, nothing holds a branch but what held it
firmly before. -/
theorem holder_of_not_firm
    (placed : Placed provider.tree repoPath path location branch spared before world)
    (known : world.repositories location = some repository)
    (loose : ¬Firm provider.tree (provider.tree.locate path) before location name) :
    Repository.holder
      { repository with
        worktrees := (repository.worktrees.filter
          (·.location ≠ provider.tree.locate path)).filter fun worktree =>
            worktree.locked || (Git.withoutWorktree provider.tree (provider.tree.locate path)
              location repository world).hasEntry worktree.location }
      location name = none := by
  have head := placed.head
  rw [World.headOf, known, Option.bind_some] at head
  have worktrees := placed.worktrees
  rw [World.worktreesOf, known] at worktrees
  simp only [Option.map_some, Option.getD_some] at worktrees
  rw [Repository.holder, if_neg, Option.map_eq_none_iff, List.find?_eq_none]
  · intro worktree member has
    apply loose
    right
    rw [List.mem_filter, List.mem_filter, worktrees, List.mem_append] at member
    rcases member with ⟨⟨old | new, elsewhere⟩, stays⟩
    · refine ⟨worktree, old, by simpa using has, by simpa using elsewhere, ?_⟩
      rw [Bool.or_eq_true] at stays
      rcases stays with locked | present
      · exact Or.inl locked
      · right
        cases inside : provider.tree.within worktree.location (provider.tree.locate path) with
        | true =>
            rw [World.hasEntry, withoutWorktree_within inside] at present
            cases present
        | false =>
            refine ⟨rfl, ?_⟩
            rw [← placed.hasEntry_eq inside]
            simpa [World.hasEntry, Git.withoutWorktree, World.setRepository, World.removeTree,
              inside] using present
    · rw [List.mem_singleton] at new
      rw [new] at elsewhere
      simp at elsewhere
  · intro held
    apply loose
    exact Or.inl (head.symm.trans held)

theorem repositoryAt_withoutWorktree (repository : Repository Location)
    (owner : world.ownerAt (tree.locate repoPath) = some location)
    (apart : tree.within (tree.locate repoPath) target = false) :
    (Git.withoutWorktree tree target location repository world).repositoryAt tree repoPath =
      some (location,
        { repository with worktrees := repository.worktrees.filter (·.location ≠ target) }) := by
  apply World.repositoryAt_eq_some_iff.mpr
  constructor
  · rw [← owner]
    simp [World.ownerAt, Git.withoutWorktree, World.setRepository, World.removeTree, apart]
  · exact Git.repositories_setRepository _ location _

theorem repositoryAt_worktreePrune
    (found : world.repositoryAt tree repoPath = some (location, repository)) :
    (Git.worktreePrune tree repoPath world).final.repositoryAt tree repoPath =
      some (location,
        { repository with
          worktrees := repository.worktrees.filter fun worktree =>
            worktree.locked || world.hasEntry worktree.location }) := by
  rw [Git.worktreePrune, Git.inRepository_of_some _ found]
  exact Git.repositoryAt_setRepository _ found

/-- Taking a new worktree back takes everything in its place, and its branch unless that
is held elsewhere. -/
theorem fresh_of_kept (undisturbed : Undisturbed provider outside repoPath env.workingPath before)
    (owner : before.ownerAt (provider.tree.locate repoPath) = some location)
    (placed : Placed provider.tree repoPath env.workingPath location branch spared before world)
    (kept : Kept before
      ((destroy provider outside env.workingPath (takeBackOptions env repoPath)).run world).final) :
    Fresh provider repoPath env.workingPath env.branchName before := by
  rcases placed.known with ⟨repository, known⟩
  rw [destroy_of_placed undisturbed owner placed known] at kept
  refine ⟨?_, ?_⟩
  · intro other inside
    cases present : before.hasEntry other with
    | false => rfl
    | true =>
        have deletes := Git.sameDirectories_branchDelete provider.tree repoPath env.branchName
          (Git.worktreePrune provider.tree repoPath (Git.withoutWorktree provider.tree
            (provider.tree.locate env.workingPath) location repository world)).final
        have prunes := Git.sameDirectories_worktreePrune provider.tree repoPath
          (Git.withoutWorktree provider.tree (provider.tree.locate env.workingPath) location
            repository world)
        have stays := kept.entries other present
        rw [SameDirectories] at deletes prunes
        rw [World.hasEntry, deletes, prunes, withoutWorktree_within inside] at stays
        cases stays
  · intro other otherOwner member
    rw [owner] at otherOwner
    cases otherOwner
    by_contra loose
    have removed := repositoryAt_withoutWorktree repository placed.owner
      (undisturbed.apart location owner).2
    have free := holder_of_not_firm placed known loose
    have pruned := repositoryAt_worktreePrune removed
    exact not_mem_branchDelete pruned free (kept.branches location env.branchName member)

/-! ## Taking back -/

theorem takesOnlyNew_iff (handed : environmentOf provider outside request world = some env) :
    TakesOnlyNew provider outside request world ↔
      match env.metadata with
      | .adopted _ =>
          RefusesRemoval provider outside request.base.canonicalRepoPath env.workingPath world
      | .created =>
          Fresh provider request.base.canonicalRepoPath env.workingPath env.branchName world := by
  constructor
  · intro takes
    exact takes env handed
  · intro holds other otherHanded
    rw [handed] at otherHanded
    cases otherHanded
    exact holds

theorem kept_adopted_iff (present : world.hasEntry (provider.tree.locate env.workingPath) = true) :
    (RefusesRemoval provider outside repoPath env.workingPath world →
      Kept world ((destroy provider outside env.workingPath
        (takeBackOptions env repoPath)).run world).final) ∧
    (Undisturbed provider outside repoPath env.workingPath world →
      Kept world ((destroy provider outside env.workingPath
        (takeBackOptions env repoPath)).run world).final →
      RefusesRemoval provider outside repoPath env.workingPath world) := by
  constructor
  · intro refuses
    rw [destroy_of_refused outside rfl rfl present refuses]
    exact kept_refl world
  · intro undisturbed kept
    exact refuses_of_kept undisturbed rfl rfl present (kept.entries _ present)

theorem kept_created_iff (owner : before.ownerAt (provider.tree.locate repoPath) = some location)
    (placed : Placed provider.tree repoPath env.workingPath location branch [] before between) :
    (Fresh provider repoPath env.workingPath env.branchName before →
      Kept before ((destroy provider outside env.workingPath
        (takeBackOptions env repoPath)).run between).final) ∧
    (Undisturbed provider outside repoPath env.workingPath before →
      Kept before ((destroy provider outside env.workingPath
        (takeBackOptions env repoPath)).run between).final →
      Fresh provider repoPath env.workingPath env.branchName before) := by
  constructor
  · intro fresh
    rcases destroyed_destroy provider outside env.workingPath (takeBackOptions env repoPath)
      between with ⟨other, given, destroyed⟩
    rcases given repoPath rfl with rfl
    exact kept_of_fresh fresh owner placed destroyed
  · intro undisturbed kept
    exact fresh_of_kept undisturbed owner placed kept

end

/-! ## The resolver -/

theorem base_of_built
    (built : buildIsolationRequest base workflowType workflowId hints = .ok request) :
    request.base = base := by
  cases workflowType with
  | pr =>
      simp only [buildIsolationRequest] at built
      split at built
      · cases built
      · split at built
        · cases built
        · cases built
          rfl
  | _ =>
      cases built
      rfl

theorem createNewEnvironment_of_unrecorded {resolver : IsolationResolver Location}
    {outside : Outside} {codebase : CodebaseSummary} {repoPath : Path} {world : World Location}
    {env : WorktreeEnvironment} (built : buildIsolationRequest
      { codebaseName := some codebase.name, canonicalRepoPath := repoPath } workflowType workflowId
      hints = .ok request) (ran : (create resolver.provider outside request).run
      ((runCleanup resolver codebase).run world).final = .ok env between)
    (unrecorded : resolver.storeCreate
      { codebaseId := codebase.id, workflowType, workflowId
        workingPath := env.workingPath
        branchName := env.branchName
        createdByPlatform := some platformType } = .error error) :
    ((createNewEnvironment resolver outside codebase repoPath workflowType workflowId hints
      platformType).run world).final =
      ((destroy resolver.provider outside env.workingPath (takeBackOptions env repoPath)).run
        between).final := by
  have cleaning : ∃ count, (runCleanup resolver codebase).run world =
      .ok count ((runCleanup resolver codebase).run world).final := by
    rw [runCleanup]
    dsimp only
    split
    · exact ⟨_, rfl⟩
    · exact ⟨_, rfl⟩
  rcases cleaning with ⟨count, cleaning⟩
  rw [createNewEnvironment, bind_of_ok cleaning, built]
  rw [bind_of_ok (show (ofExcept (.ok request) : Run Location IsolationRequest).run
    ((runCleanup resolver codebase).run world).final =
    .ok request ((runCleanup resolver codebase).run world).final from rfl)]
  rw [createOrBlock]
  dsimp only
  rw [ran]
  dsimp only
  rw [persist]
  dsimp only
  rw [unrecorded]
  rfl

/-- Whatever fails from outside, taking back an environment takes nothing that was
there before if the condition holds; undisturbed, it does so only then. -/
theorem createNewEnvironment_kept_iff (resolver : IsolationResolver Location) (outside : Outside)
    (codebase : CodebaseSummary) (repoPath : Path) (workflowType : IsolationWorkflowType)
    (workflowId : List Char) (hints : Option IsolationHints) (platformType : List Char)
    (world between : World Location) (request : IsolationRequest) (env : WorktreeEnvironment)
    (error : IsolationError)
    (built : buildIsolationRequest
      { codebaseName := some codebase.name, canonicalRepoPath := repoPath } workflowType workflowId
      hints = .ok request)
    (ran : (create resolver.provider outside request).run
      ((runCleanup resolver codebase).run world).final = .ok env between)
    (unrecorded : resolver.storeCreate
      { codebaseId := codebase.id, workflowType, workflowId
        workingPath := env.workingPath
        branchName := env.branchName
        createdByPlatform := some platformType } = .error error) :
    (TakesOnlyNew resolver.provider outside request ((runCleanup resolver codebase).run world).final →
      Kept ((runCleanup resolver codebase).run world).final
        ((createNewEnvironment resolver outside codebase repoPath workflowType workflowId hints
          platformType).run world).final) ∧
    (Undisturbed resolver.provider outside repoPath env.workingPath
        ((runCleanup resolver codebase).run world).final →
      Kept ((runCleanup resolver codebase).run world).final
        ((createNewEnvironment resolver outside codebase repoPath workflowType workflowId hints
          platformType).run world).final →
      TakesOnlyNew resolver.provider outside request
        ((runCleanup resolver codebase).run world).final) := by
  rw [createNewEnvironment_of_unrecorded built ran unrecorded]
  generalize ((runCleanup resolver codebase).run world).final = before at ran ⊢
  have base : request.base.canonicalRepoPath = repoPath := by rw [base_of_built built]
  rw [takesOnlyNew_iff (environmentOf_eq resolver.provider outside ran), base]
  have ends := create_ends resolver.provider outside request before
  rw [ran] at ends
  cases ends with
  | atPath path present =>
      rw [worktreeExists, Bool.and_eq_true] at present
      exact kept_adopted_iff present.2
  | byBranch path missing kind found present => exact kept_adopted_iff present
  | created path missing unfound created =>
      rcases placedFor_createWorktree resolver.provider outside created with
        ⟨location, branch, owner, placed, -⟩
      rw [base] at owner placed
      exact kept_created_iff owner placed

namespace Rollback

def codebase : CodebaseSummary where
  id := "cb-1".toList
  name := "acme/app".toList

def resolver : IsolationResolver Path where
  provider := UnforcedDestroy.provider
  storeCreate := fun _ => .error (.other "database is locked".toList)

def worktreePath : Path :=
  "/home/me/.archon/workspaces/acme/app/worktrees/archon/issue-7".toList

def world : World Path where
  directories := fun path =>
    if path = "/srv/app".toList then
      some { entry := some .checkout, repository := some "/srv/app".toList }
    else if path = worktreePath then
      some {
        entry := some (.pointer "gitdir: /srv/app/.git/worktrees/issue-7".toList)
        repository := some "/srv/app".toList }
    else none
  repositories := fun path =>
    if path = "/srv/app".toList then
      some {
        head := some "main".toList
        branches := ["main".toList, "archon/issue-7".toList]
        worktrees := [{ location := worktreePath, branch := some "archon/issue-7".toList }] }
    else none

end Rollback

/-- A worktree that was made for the call goes again, and nothing else. -/
theorem createNewEnvironment_kept_new :
    Kept BranchIdentity.world
      ((createNewEnvironment Rollback.resolver UnforcedDestroy.outside Rollback.codebase
        "/srv/app".toList .issue "7".toList none "cli".toList).run BranchIdentity.world).final := by
  have runs : (match (create Rollback.resolver.provider UnforcedDestroy.outside
      BranchIdentity.issue).run BranchIdentity.world with
      | .ok env _ => decide (env.workingPath = Rollback.worktreePath)
      | .error _ _ => false) = true := by decide
  cases ran : (create Rollback.resolver.provider UnforcedDestroy.outside
      BranchIdentity.issue).run BranchIdentity.world with
  | error error final =>
      rw [ran] at runs
      cases runs
  | ok env between =>
      refine (createNewEnvironment_kept_iff Rollback.resolver UnforcedDestroy.outside
        Rollback.codebase "/srv/app".toList .issue "7".toList none "cli".toList
        BranchIdentity.world between BranchIdentity.issue env _ rfl ran rfl).1 ?_
      intro other handed
      cases handed
      refine ⟨?_, ?_⟩
      · intro place inside
        by_cases same : place = "/srv/app".toList
        · subst same
          exact absurd inside (by decide)
        · change World.hasEntry BranchIdentity.world place = false
          simp only [World.hasEntry, BranchIdentity.world, if_neg same, Option.any_none]
      · intro location owner member
        cases owner
        exact absurd member (by decide)

theorem createNewEnvironment_kept_adopted :
    ¬∀ (resolver : IsolationResolver Path) (outside : Outside) (codebase : CodebaseSummary)
      (repoPath : Path) (workflowType : IsolationWorkflowType) (workflowId : List Char)
      (hints : Option IsolationHints) (platformType : List Char) (world between : World Path)
      (request : IsolationRequest) (env : WorktreeEnvironment) (error : IsolationError),
      buildIsolationRequest
        { codebaseName := some codebase.name, canonicalRepoPath := repoPath } workflowType
        workflowId hints = .ok request →
      (create resolver.provider outside request).run
        ((runCleanup resolver codebase).run world).final = .ok env between →
      resolver.storeCreate
        { codebaseId := codebase.id, workflowType, workflowId
          workingPath := env.workingPath
          branchName := env.branchName
          createdByPlatform := some platformType } = .error error →
      Kept ((runCleanup resolver codebase).run world).final
        ((createNewEnvironment resolver outside codebase repoPath workflowType workflowId hints
          platformType).run world).final := by
  intro always
  have runs : (match (create Rollback.resolver.provider UnforcedDestroy.outside
      BranchIdentity.issue).run Rollback.world with
      | .ok _ _ => true
      | .error _ _ => false) = true := by decide
  cases ran : (create Rollback.resolver.provider UnforcedDestroy.outside
      BranchIdentity.issue).run Rollback.world with
  | error error final =>
      rw [ran] at runs
      cases runs
  | ok env between =>
      have kept := always Rollback.resolver UnforcedDestroy.outside Rollback.codebase
        "/srv/app".toList .issue "7".toList none "cli".toList Rollback.world between
        BranchIdentity.issue env _ rfl ran rfl
      have stays := kept.entries Rollback.worktreePath (by decide)
      have gone : ((createNewEnvironment Rollback.resolver UnforcedDestroy.outside Rollback.codebase
          "/srv/app".toList .issue "7".toList none "cli".toList).run
          Rollback.world).final.hasEntry Rollback.worktreePath = false := by decide
      rw [gone] at stays
      cases stays

end HarnessAgent
