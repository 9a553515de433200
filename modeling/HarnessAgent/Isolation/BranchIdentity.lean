import HarnessAgent.Isolation.DestroyFrame

/-! # The branch of an environment

Whether the branch that an environment is reported with is the one checked out in its
worktree.
-/

namespace HarnessAgent

open LexicalPath StatefulRun

variable {Location : Type} [DecidableEq Location]

def World.checkedOut (tree : FileTree Location) (repoPath path : Path) (world : World Location) :
    Option BranchName := do
  let found ← world.repositoryAt tree repoPath
  let worktree ← found.2.worktrees.find? (·.location = tree.locate path)
  worktree.branch

variable {before : World Location} {branch : Option BranchName} {location : Location}
  {path repoPath : Path} {repository : Repository Location} {tree : FileTree Location}
  {spared : List BranchName}

theorem Placed.find?_worktrees
    (placed : Placed tree repoPath path location branch spared before after)
    (known : after.repositories location = some repository) :
    repository.worktrees.find? (·.location = tree.locate path) =
      some { location := tree.locate path, branch } := by
  have worktrees := placed.worktrees
  rw [World.worktreesOf, known] at worktrees
  simp only [Option.map_some, Option.getD_some] at worktrees
  have others : (before.worktreesOf location).find? (·.location = tree.locate path) = none := by
    rw [List.find?_eq_none]
    intro worktree member
    simpa using placed.unregistered worktree member
  rw [worktrees, List.find?_append, others]
  simp

theorem Placed.checkedOut_eq
    (placed : Placed tree repoPath path location branch spared before after) :
    after.checkedOut tree repoPath path = branch := by
  rcases placed.known with ⟨repository, known⟩
  have found := World.repositoryAt_eq_some_iff.mpr ⟨placed.owner, known⟩
  simp [World.checkedOut, found, placed.find?_worktrees known]

/-! ## Attempts -/

namespace Git

variable {world : World Location}

theorem repositoryAt_setRepository (changed : Repository Location)
    (found : world.repositoryAt tree path = some (location, repository)) :
    (world.setRepository location changed).repositoryAt tree path = some (location, changed) := by
  rcases World.repositoryAt_eq_some.mp found with ⟨directory, there, owner, -⟩
  apply World.repositoryAt_eq_some.mpr
  exact ⟨directory, there, owner, by simp [World.setRepository]⟩

def Blocked (tree : FileTree Location) (repoPath path : Path) (branch : BranchName)
    (world : World Location) : Prop :=
  ∃ location repository, world.repositoryAt tree repoPath = some (location, repository) ∧
    branch ∈ repository.branches ∧ ¬CanAdd tree path location repository (some branch) world

variable {next : World Location}

theorem not_worktreeAdd_of_blocked {branch : BranchName}
    (blocked : Blocked tree repoPath path branch world) :
    Git.worktreeAdd tree repoPath path branch world ≠ .ok () next := by
  rcases blocked with ⟨location, repository, found, member, cannot⟩
  rcases Git.addWorktree_of_not_canAdd branch cannot with ⟨refusal, refused⟩
  rw [Git.worktreeAdd, Git.inRepository_of_some _ found, if_pos member, refused]
  intro ran
  cases ran

theorem mem_of_branchForce {branch : BranchName}
    (ran : Git.branchForce tree repoPath branch start world = .ok () next)
    (found : next.repositoryAt tree repoPath = some (location, repository)) :
    branch ∈ repository.branches := by
  rcases Git.inRepository_eq_ok ran with ⟨location', repository', before, ran⟩
  split at ran
  · cases ran
  · split at ran
    · cases ran
    · cases ran
      rw [repositoryAt_setRepository _ before] at found
      cases found
      exact mem_addBranch_self _ _

theorem resolves_of_worktreeAddNew {branch : BranchName}
    (found : world.repositoryAt tree repoPath = some (location, repository))
    (ran : Git.worktreeAddNew tree repoPath path branch start world = .ok () next) :
    repository.resolves start = true := by
  rw [Git.worktreeAddNew, Git.inRepository_of_some _ found] at ran
  split at ran
  · cases ran
  · split at ran
    · cases ran
    next resolved => simpa using resolved

end Git

namespace WorktreeProvider

/-- A first attempt that fails either has changed nothing or leaves no room for a
second one. -/
theorem addAgain_of_failed {arguments : List (List Char)} {branch : BranchName}
    {world next final : World Location} (failed : (execFileAsync timeoutMs fault arguments
      (Git.worktreeAddNew tree repoPath path branch start)).run world = .error message next)
    (again : Git.worktreeAdd tree repoPath path branch next = .ok () final) :
    next = world ∧ ∀ location repository,
      world.repositoryAt tree repoPath = some (location, repository) → fault = none →
      branch ∈ repository.branches ∨ repository.resolves start = false := by
  have notBlocked : ¬Git.Blocked tree repoPath path branch next := by
    intro blocked
    exact Git.not_worktreeAdd_of_blocked blocked again
  have fromError : ∀ refusal,
      Git.worktreeAddNew tree repoPath path branch start world = .error refusal next →
      next = world ∧ ∀ location repository,
        world.repositoryAt tree repoPath = some (location, repository) →
        branch ∈ repository.branches ∨ repository.resolves start = false := by
    intro refusal refused
    rcases Git.worktreeAddNew_eq_error refused with
      unchanged | ⟨location, repository, found, rfl, cannot⟩
    · exact unchanged
    · exfalso
      apply notBlocked
      exact ⟨location, _, Git.repositoryAt_setRepository _ found, mem_addBranch_self _ _, cannot⟩
  rcases execFileAsync_eq_error failed with ⟨-, refusal, refused⟩ | ⟨outer, rfl, ended⟩
  · have unchanged := fromError refusal refused
    exact ⟨unchanged.1, fun location repository found _ => unchanged.2 location repository found⟩
  · have same : next = world := by
      split at ended
      · cases answer : Git.worktreeAddNew tree repoPath path branch start world with
        | ok value done =>
            -- The worktree has been made after all, so there is no place for it any more.
            have present := Git.present_of_worktreeAddNew answer
            rw [answer] at ended
            rw [← Outcome.final_ok value done, ← ended, Git.absent_of_worktreeAdd again] at present
            cases present
        | error refusal done =>
            rw [answer] at ended
            rw [ended] at fromError ⊢
            exact (fromError refusal answer).1
      · exact ended
    refine ⟨same, ?_⟩
    intro location repository found unhurt
    cases unhurt

/-! ## New branches -/

variable (provider : WorktreeProvider Location) (outside : Outside)

theorem placed_createNewBranch {worktreePath : Path} {world next : World Location}
    (ran : (createNewBranch provider outside request repoPath worktreePath branchName
      baseBranch).run world = .ok () next) :
    ∃ location, world.ownerAt (provider.tree.locate repoPath) = some location ∧
      Placed provider.tree repoPath worktreePath location (some branchName) [] world next := by
  rw [createNewBranch] at ran
  rcases bind_eq_ok.mp ran with ⟨_, cleaned, cleaning, ran⟩
  have cleared := cleared_cleanOrphanDirectory provider outside worktreePath world
  rw [cleaning, Outcome.final_ok] at cleared
  rcases unlessExists_eq_ok.mp ran with first | ⟨message, between, failed, -, again⟩
  · have added := (execFileAsync_eq_ok.mp first).2
    rcases Git.inRepository_eq_ok added with ⟨location, repository, found, -⟩
    have owner := (World.repositoryAt_eq_some_iff.mp found).1
    exact ⟨location, cleared.owners _ _ owner,
      Placed.after_cleared cleared (Git.placed_worktreeAddNew owner added)⟩
  · split at again
    · cases again
    · rcases bind_eq_ok.mp again with ⟨_, forced, forcing, adding⟩
      have forcing := (execFileAsync_eq_ok.mp (orOther_eq_ok.mp forcing)).2
      have adding := (execFileAsync_eq_ok.mp (orOther_eq_ok.mp adding)).2
      have forces := Git.keepsTo_branchForce provider.tree repoPath [] branchName
        ((explicitStart request).getD ("origin/".toList ++ baseBranch)) between
      rw [forcing, Outcome.final_ok] at forces
      rcases Git.placed_worktreeAdd adding with ⟨location, repository, found, placed⟩
      rw [Git.attached, if_pos (Or.inl (Git.mem_of_branchForce forcing found))] at placed
      have keeps : KeepsTo provider.tree repoPath [] cleaned forced := by
        rcases Git.attempted_of_failed failed with attempted | filled
        · exact IsTrans.trans _ _ _ attempted forces
        · rw [← forces.directories, Git.absent_of_worktreeAdd adding] at filled
          cases filled
      have owner := (World.repositoryAt_eq_some_iff.mp found).1
      rw [keeps.ownerAt_eq] at owner
      exact ⟨location, cleared.owners _ _ owner, Placed.after_cleared cleared
        (Placed.after_branchesOnly (keeps.only location owner) placed)⟩

end WorktreeProvider

/-! ## Pull requests of the same repository -/

namespace Git

def fetched (repository : Repository Location) (name : BranchName) : Repository Location :=
  if name ∈ repository.remoteBranches then
    { repository with tracking := repository.tracking ++ [name] }
  else repository

theorem fetch_eq_ok {name : BranchName} {world next : World Location}
    (ran : Git.fetch tree repoPath name world = .ok () next) :
    ∃ location repository, world.repositoryAt tree repoPath = some (location, repository) ∧
      next.repositoryAt tree repoPath = some (location, fetched repository name) := by
  rcases Git.inRepository_eq_ok ran with ⟨location, repository, found, ran⟩
  refine ⟨location, repository, found, ?_⟩
  rw [fetched]
  split at ran
  next remote =>
    cases ran
    rw [if_pos remote]
    exact repositoryAt_setRepository _ found
  next other =>
    rw [if_neg other]
    split at ran
    · cases ran
      exact found
    · cases ran

omit [DecidableEq Location] in
theorem fetched_branches (repository : Repository Location) (name : BranchName) :
    (fetched repository name).branches = repository.branches := by
  rw [fetched]
  split
  · rfl
  · rfl

theorem ne_origin (name : BranchName) : (name == "origin/".toList ++ name) = false := by
  rw [beq_eq_false_iff_ne]
  intro same
  have lengths := congrArg List.length same
  rw [List.length_append] at lengths
  have seven : "origin/".toList.length = 7 := rfl
  omega

omit [DecidableEq Location] in
theorem fetched_namesCommit (repository : Repository Location) (name : BranchName) :
    (fetched repository name).namesCommit name = repository.namesCommit name := by
  rw [fetched]
  split
  · simp only [Repository.namesCommit, List.any_append, List.any_cons, List.any_nil, ne_origin,
      Bool.or_false]
  · rfl

omit [DecidableEq Location] in
theorem fetched_resolves (repository : Repository Location) (name : BranchName) :
    (fetched repository name).resolves ("origin/".toList ++ name) = true ↔
      name ∈ repository.remoteBranches ∨ repository.resolves ("origin/".toList ++ name) = true := by
  rw [fetched]
  split
  next remote =>
    simp [Repository.resolves, Repository.namesCommit, remote]
  next other => simp [other]

end Git

namespace WorktreeProvider

/-- The branch of a PR gets checked out as a branch: it is there already, or can be
taken for nothing else, or is made from `origin` at the first attempt. -/
def AttachesBranch (outside : Outside) (prBranch : BranchName) (repository : Repository Location) :
    Prop :=
  prBranch ∈ repository.branches ∨ repository.namesCommit prBranch = false ∨
    (outside.git .add = none ∧ (prBranch ∈ repository.remoteBranches ∨
      repository.resolves ("origin/".toList ++ prBranch) = true))

variable (provider : WorktreeProvider Location) (outside : Outside)

theorem placed_createFromSameRepoPr {worktreePath : Path} {world next : World Location}
    (ran : (createFromSameRepoPr provider outside repoPath worktreePath prBranch).run world =
      .ok () next) :
    ∃ location repository branch,
      world.repositoryAt provider.tree repoPath = some (location, repository) ∧
        Placed provider.tree repoPath worktreePath location branch [] world next ∧
        (branch = some prBranch ↔ AttachesBranch outside prBranch repository) := by
  rw [createFromSameRepoPr] at ran
  rcases bind_eq_ok.mp ran with ⟨_, between, fetching, ran⟩
  have fetching := (execFileAsync_eq_ok.mp (orOther_eq_ok.mp fetching)).2
  rcases Git.fetch_eq_ok fetching with ⟨location, repository, before, found⟩
  have fetches := Git.keepsTo_fetch provider.tree repoPath [] prBranch world
  rw [fetching, Outcome.final_ok] at fetches
  have only := fetches.only location (World.repositoryAt_eq_some_iff.mp before).1
  have owner := (World.repositoryAt_eq_some_iff.mp found).1
  have resolves := Git.fetched_resolves repository prBranch
  rcases unlessExists_eq_ok.mp ran with first | ⟨message, failing, failed, -, again⟩
  · rcases execFileAsync_eq_ok.mp first with ⟨unhurt, added⟩
    have resolved := resolves.mp (Git.resolves_of_worktreeAddNew found added)
    refine ⟨location, repository, some prBranch, before,
      Placed.after_branchesOnly only (Git.placed_worktreeAddNew owner added), ?_⟩
    simp only [true_iff]
    exact Or.inr (Or.inr ⟨unhurt, resolved⟩)
  · have again := (execFileAsync_eq_ok.mp (orOther_eq_ok.mp again)).2
    rcases addAgain_of_failed failed again with ⟨rfl, reason⟩
    rcases Git.placed_worktreeAdd again with ⟨location', repository', found', placed⟩
    rw [found] at found'
    cases found'
    refine ⟨location, repository, _, before, Placed.after_branchesOnly only placed, ?_⟩
    rw [Git.attached, Git.fetched_branches, Git.fetched_namesCommit, AttachesBranch]
    constructor
    · intro attached
      split at attached
      next known =>
        rcases known with member | noCommit
        · exact Or.inl member
        · exact Or.inr (Or.inl noCommit)
      next => cases attached
    · intro attaches
      rw [if_pos]
      rcases attaches with member | noCommit | ⟨unhurt, resolved⟩
      · exact Or.inl member
      · exact Or.inr noCommit
      · rcases reason location _ found unhurt with member | unresolved
        · rw [Git.fetched_branches] at member
          exact Or.inl member
        · rw [resolves.mpr resolved] at unresolved
          cases unresolved

end WorktreeProvider

/-! ## Pull requests of forks -/

namespace Git

theorem mem_of_fetchInto {name : List Char} {branch : BranchName} {world next : World Location}
    (ran : Git.fetchInto tree repoPath name branch world = .ok () next)
    (found : next.repositoryAt tree repoPath = some (location, repository)) :
    branch ∈ repository.branches := by
  rcases Git.inRepository_eq_ok ran with ⟨location', repository', before, ran⟩
  split at ran
  · cases ran
  · split at ran
    · cases ran
      rw [repositoryAt_setRepository _ before] at found
      cases found
      exact mem_addBranch_self _ _
    · cases ran

end Git

namespace WorktreeProvider

variable (provider : WorktreeProvider Location) (outside : Outside) {next world : World Location}

theorem createBranchWithStaleRetry_eq_ok
    (ran : (createBranchWithStaleRetry provider outside repoPath branchName createCommand
      retry).run world = .ok () next) :
    createCommand.run world = .ok () next ∨
      ∃ message between deleted, createCommand.run world = .error message between ∧
        Git.branchDelete provider.tree repoPath branchName between = .ok () deleted ∧
        retry.run deleted = .ok () next := by
  rcases unlessExists_eq_ok.mp ran with first | ⟨message, between, failed, -, again⟩
  · exact Or.inl first
  · rcases bind_eq_ok.mp again with ⟨_, deleted, deleting, retrying⟩
    exact Or.inr ⟨message, between, deleted, failed,
      (execFileAsync_eq_ok.mp (orOther_eq_ok.mp deleting)).2, orOther_eq_ok.mp retrying⟩

def reviewBranch (prNumber : List Char) : BranchName :=
  "pr-".toList ++ prNumber ++ "-review".toList

variable {name : BranchName}

theorem placed_of_checkoutNew
    (placed : Placed tree repoPath path location branch [name] before world)
    (ran : Git.checkoutNew tree path name start world = .ok () next) :
    Placed tree repoPath path location (some name) [] before next := by
  rcases Git.placed_checkoutNew placed name start with ⟨moved, after, succeeded⟩
  rcases succeeded next ran with ⟨rfl, there⟩
  rw [ran, Outcome.final_ok] at after
  exact after.restore there

variable {arguments : List (List Char)}

theorem placed_of_checkoutNew_failed
    (placed : Placed tree repoPath path location branch spared before world)
    (failed : (execFileAsync timeoutMs fault arguments
      (Git.checkoutNew tree path name start)).run world = .error message next) :
    ∃ moved, Placed tree repoPath path location moved spared before next := by
  rcases Git.placed_checkoutNew placed name start with ⟨moved, after, -⟩
  rcases execFileAsync_eq_error failed with ⟨-, refusal, refused⟩ | ⟨outer, -, ended⟩
  · rw [refused, Outcome.final_error] at after
    exact ⟨moved, after⟩
  · split at ended
    · rw [ended]
      exact ⟨moved, after⟩
    · rw [ended]
      exact ⟨branch, placed⟩

variable {worktreePath : Path}

theorem placed_of_staleRetry
    (placed : Placed provider.tree repoPath worktreePath location branch [name] before world)
    (ran : (createBranchWithStaleRetry provider outside repoPath name
      (git outside .checkout worktreePath arguments
        (Git.checkoutNew provider.tree worktreePath name sha))
      (git outside .retry worktreePath arguments
        (Git.checkoutNew provider.tree worktreePath name sha))).run world = .ok () next) :
    Placed provider.tree repoPath worktreePath location (some name) [] before next := by
  rcases createBranchWithStaleRetry_eq_ok provider outside ran with
    first | ⟨message, between, deleted, failed, deleting, retrying⟩
  · exact placed_of_checkoutNew placed (execFileAsync_eq_ok.mp first).2
  · rcases placed_of_checkoutNew_failed placed failed with ⟨moved, attempted⟩
    have deletes := Git.keepsTo_branchDelete provider.tree repoPath name between
    rw [deleting, Outcome.final_ok] at deletes
    have remaining := attempted.then_branchesOnly (deletes.only location attempted.owner)
    exact placed_of_checkoutNew remaining (execFileAsync_eq_ok.mp retrying).2

variable {prNumber : List Char}

theorem placed_createFromForkPr_sha
    (ran : (createFromForkPr provider outside repoPath worktreePath prNumber (some sha)).run world =
      .ok () next) :
    ∃ location, world.ownerAt (provider.tree.locate repoPath) = some location ∧
      Placed provider.tree repoPath worktreePath location (some (reviewBranch prNumber)) [] world
        next := by
  rw [createFromForkPr] at ran
  rcases bind_eq_ok.mp ran with ⟨_, fetched, fetching, ran⟩
  rcases bind_eq_ok.mp ran with ⟨_, added, adding, ran⟩
  have fetching := (execFileAsync_eq_ok.mp (orOther_eq_ok.mp fetching)).2
  have adding := (execFileAsync_eq_ok.mp (orOther_eq_ok.mp adding)).2
  have fetches := Git.keepsTo_fetch provider.tree repoPath [reviewBranch prNumber]
    ("pull/".toList ++ prNumber ++ "/head".toList) world
  rw [fetching, Outcome.final_ok] at fetches
  rcases Git.placed_worktreeAdd adding with ⟨location, repository, found, placed⟩
  have owner := (World.repositoryAt_eq_some_iff.mp found).1
  rw [fetches.ownerAt_eq] at owner
  exact ⟨location, owner, placed_of_staleRetry provider outside
    (Placed.after_branchesOnly (fetches.only location owner) (placed.mono _)) ran⟩

theorem keepsTo_of_staleRetry (ran : (createBranchWithStaleRetry provider outside repoPath name
      (git outside .fetch repoPath arguments (Git.fetchInto provider.tree repoPath remote name))
      (git outside .retry repoPath arguments
        (Git.fetchInto provider.tree repoPath remote name))).run world = .ok () next) :
    KeepsTo provider.tree repoPath [name] world next ∧
      ∀ location repository, next.repositoryAt provider.tree repoPath = some (location, repository) →
        name ∈ repository.branches := by
  have fetches := Git.keepsTo_fetchInto provider.tree repoPath [name] remote name
  rcases createBranchWithStaleRetry_eq_ok provider outside ran with
    first | ⟨message, between, deleted, failed, deleting, retrying⟩
  · have fetched := (execFileAsync_eq_ok.mp first).2
    have keeps := fetches world
    rw [fetched, Outcome.final_ok] at keeps
    exact ⟨keeps, fun location repository => Git.mem_of_fetchInto fetched⟩
  · have fetched := (execFileAsync_eq_ok.mp retrying).2
    have attempt := leads_execFileAsync fetches gitOperationTimeoutMs (outside.git .fetch)
      ("-C".toList :: repoPath :: arguments) world
    rw [git] at failed
    rw [failed, Outcome.final_error] at attempt
    have deletes := Git.keepsTo_branchDelete provider.tree repoPath name between
    rw [deleting, Outcome.final_ok] at deletes
    have keeps := fetches deleted
    rw [fetched, Outcome.final_ok] at keeps
    refine ⟨?_, fun location repository => Git.mem_of_fetchInto fetched⟩
    exact IsTrans.trans _ _ _ attempt (IsTrans.trans _ _ _ deletes keeps)

theorem placed_createFromForkPr_fetched
    (ran : (createFromForkPr provider outside repoPath worktreePath prNumber none).run world =
      .ok () next) :
    ∃ location, world.ownerAt (provider.tree.locate repoPath) = some location ∧
      Placed provider.tree repoPath worktreePath location (some (reviewBranch prNumber)) [] world
        next := by
  rw [createFromForkPr] at ran
  rcases bind_eq_ok.mp ran with ⟨_, fetched, fetching, adding⟩
  have adding := (execFileAsync_eq_ok.mp (orOther_eq_ok.mp adding)).2
  rcases keepsTo_of_staleRetry provider outside fetching with ⟨keeps, fresh⟩
  rcases Git.placed_worktreeAdd adding with ⟨location, repository, found, placed⟩
  rcases World.repositoryAt_eq_some_iff.mp found with ⟨owner, known⟩
  have member := fresh location repository found
  rw [Git.attached, if_pos (Or.inl member)] at placed
  have there : reviewBranch prNumber ∈ next.branchesOf location := by
    apply placed.branches _ _ (by simp)
    rw [World.branchesOf, known]
    exact member
  rw [keeps.ownerAt_eq] at owner
  exact ⟨location, owner,
    (Placed.after_branchesOnly (keeps.only location owner) (placed.mono _)).restore there⟩

variable {prSha : Option (List Char)}

theorem placed_createFromForkPr
    (ran : (createFromForkPr provider outside repoPath worktreePath prNumber prSha).run world =
      .ok () next) :
    ∃ location, world.ownerAt (provider.tree.locate repoPath) = some location ∧
      Placed provider.tree repoPath worktreePath location (some (reviewBranch prNumber)) [] world
        next := by
  cases prSha with
  | some sha => exact placed_createFromForkPr_sha provider outside ran
  | none => exact placed_createFromForkPr_fetched provider outside ran

theorem reviewBranch_ne (prNumber : List Char) :
    reviewBranch prNumber ≠ "archon/pr-".toList ++ prNumber ++ "-review".toList := by
  intro same
  have heads := congrArg List.head? same
  cases heads

/-! ## Creating -/

def CreatesNamed (request : IsolationRequest) (world : World Location) : Prop :=
  match request with
  | .pr base _ prBranch _ isForkPr =>
      isForkPr = false ∧ ∀ location repository,
        world.repositoryAt provider.tree base.canonicalRepoPath = some (location, repository) →
        AttachesBranch outside prBranch repository
  | _ => True

def PlacedFor (request : IsolationRequest) (worktreePath : Path) (before after : World Location) :
    Prop :=
  ∃ location branch,
    before.ownerAt (provider.tree.locate request.base.canonicalRepoPath) = some location ∧
      Placed provider.tree request.base.canonicalRepoPath worktreePath location branch [] before
        after ∧
      (branch = some (branchNameOf provider request) ↔
        CreatesNamed provider outside request before)

theorem createFromPr_eq_ok {base : IsolationRequestBase}
    (ran : (createFromPr provider outside base identifier prBranch prSha isForkPr
      worktreePath).run world = .ok () next) :
    ∃ cleaned, Cleared provider.tree worktreePath world cleaned ∧
      (if !isForkPr then
        createFromSameRepoPr provider outside base.canonicalRepoPath worktreePath prBranch
      else createFromForkPr provider outside base.canonicalRepoPath worktreePath identifier
        prSha).run cleaned = .ok () next := by
  rw [createFromPr] at ran
  rcases bind_eq_ok.mp ran with ⟨_, cleaned, cleaning, ran⟩
  have cleared := cleared_cleanOrphanDirectory provider outside worktreePath world
  rw [cleaning, Outcome.final_ok] at cleared
  refine ⟨cleaned, cleared, ?_⟩
  dsimp only at ran
  split at ran
  next succeeded =>
    cases ran
    exact succeeded
  next => cases ran

theorem placedFor_createFromPr {base : IsolationRequestBase}
    (ran : (createFromPr provider outside base identifier prBranch prSha isForkPr
      worktreePath).run world = .ok () next) :
    PlacedFor provider outside (.pr base identifier prBranch prSha isForkPr) worktreePath world
      next := by
  rcases createFromPr_eq_ok provider outside ran with ⟨cleaned, cleared, ran⟩
  cases isForkPr with
  | false =>
      rcases placed_createFromSameRepoPr provider outside ran with
        ⟨location, repository, branch, found, placed, named⟩
      have before := cleared.repositoryAt found
      refine ⟨location, branch, (World.repositoryAt_eq_some_iff.mp before).1,
        Placed.after_cleared cleared placed, ?_⟩
      change branch = some prBranch ↔ _
      rw [named]
      constructor
      · intro attaches
        refine ⟨rfl, ?_⟩
        intro location' repository' same
        rw [before] at same
        cases same
        exact attaches
      · intro creates
        exact creates.2 location repository before
  | true =>
      rcases placed_createFromForkPr provider outside ran with ⟨location, owner, placed⟩
      refine ⟨location, _, cleared.owners _ _ owner, Placed.after_cleared cleared placed, ?_⟩
      constructor
      · intro same
        exact absurd (Option.some.inj same) (reviewBranch_ne identifier)
      · intro creates
        cases creates.1

theorem placedFor_addWorktree
    (ran : (addWorktree provider outside request worktreePath (branchNameOf provider request)
      baseBranch).run world = .ok () next) :
    PlacedFor provider outside request worktreePath world next := by
  have newBranch : (createNewBranch provider outside request request.base.canonicalRepoPath
      worktreePath (branchNameOf provider request) baseBranch).run world = .ok () next →
      CreatesNamed provider outside request world →
      PlacedFor provider outside request worktreePath world next := by
    intro ran creates
    rcases placed_createNewBranch provider outside ran with ⟨location, owner, placed⟩
    exact ⟨location, _, owner, placed, by simp [creates]⟩
  cases request with
  | issue base identifier => exact newBranch ran trivial
  | review base identifier => exact newBranch ran trivial
  | thread base identifier => exact newBranch ran trivial
  | task base identifier fromBranch => exact newBranch ran trivial
  | pr base identifier prBranch prSha isForkPr => exact placedFor_createFromPr provider outside ran

omit [DecidableEq Location] in
theorem createsNamed_makeParents (request : IsolationRequest) (location : Location)
    (world : World Location) :
    CreatesNamed provider outside request (world.makeParents provider.tree location) ↔
      CreatesNamed provider outside request world := by
  cases request with
  | pr base identifier prBranch prSha isForkPr =>
      rw [CreatesNamed, CreatesNamed, (sameGit_makeParents provider.tree location world).repositoryAt_eq]
  | _ => exact Iff.rfl

theorem placedFor_createWorktree {final : World Location}
    (ran : (createWorktree provider outside request worktreePath (branchNameOf provider request)
      config).run world = .ok () final) :
    PlacedFor provider outside request worktreePath world final := by
  have ends := createWorktree_ends provider outside request worktreePath
    (branchNameOf provider request) config world
  rw [ran] at ends
  cases ends with
  | @done baseBranch baseDir added filled adding filling =>
      have parents := sameGit_makeParents provider.tree (provider.tree.locate baseDir) world
      rcases placedFor_addWorktree provider outside adding with
        ⟨location, branch, owner, placed, named⟩
      have fills := sameGit_initSubmodules provider outside worktreePath config added
      rw [filling, Outcome.final_ok] at fills
      have copies := sameGit_copyConfiguredFiles provider outside
        request.base.canonicalRepoPath worktreePath config filled
      rw [createsNamed_makeParents] at named
      rw [parents.owners] at owner
      exact ⟨location, branch, owner, Placed.after_cleared (parents.cleared _ _)
        ((placed.then_sameGit fills).then_sameGit copies), named⟩

end WorktreeProvider

open WorktreeProvider IsolationResolver

def BranchAgrees (provider : WorktreeProvider Location) (outside : Outside)
    (request : IsolationRequest) (world : World Location) : Prop :=
  ∀ env, environmentOf provider outside request world = some env →
    match env.metadata with
    | .adopted _ =>
        world.checkedOut provider.tree request.base.canonicalRepoPath env.workingPath =
          some env.branchName
    | .created => CreatesNamed provider outside request world

variable {final : World Location}

theorem create_checkedOut_iff {provider : WorktreeProvider Location} {outside : Outside}
    {world : World Location} (ran : (create provider outside request).run world = .ok env final) :
    final.checkedOut provider.tree request.base.canonicalRepoPath env.workingPath =
        some env.branchName ↔
      BranchAgrees provider outside request world := by
  have handed := environmentOf_eq provider outside ran
  have agrees : BranchAgrees provider outside request world ↔
      match env.metadata with
      | .adopted _ =>
          world.checkedOut provider.tree request.base.canonicalRepoPath env.workingPath =
            some env.branchName
      | .created => CreatesNamed provider outside request world := by
    constructor
    · intro agrees
      exact agrees env handed
    · intro agrees other otherHanded
      rw [handed] at otherHanded
      cases otherHanded
      exact agrees
  rw [agrees]
  have ends := create_ends provider outside request world
  rw [ran] at ends
  cases ends with
  | atPath path present => exact Iff.rfl
  | byBranch path missing kind found present => exact Iff.rfl
  | created path missing unfound created =>
      rcases placedFor_createWorktree provider outside created with
        ⟨location, branch, -, placed, named⟩
      dsimp only
      rw [placed.checkedOut_eq]
      exact named

def AdoptionAgrees (provider : WorktreeProvider Location) (outside : Outside) (repoPath : Path)
    (hints : IsolationHints) (world : World Location) : Prop :=
  ∀ branch existing, hints.prBranch = some branch →
    findWorktreeByBranch provider.tree (outside.git .listWorktrees) repoPath branch world =
      .ok (some existing) →
    world.checkedOut provider.tree repoPath existing = some branch

theorem tryBranchAdoption_eq_ok {resolver : IsolationResolver Location} {outside : Outside}
    {world : World Location}
    (ran : (tryBranchAdoption resolver outside codebase repoPath hints workflowType
      workflowId).run world = .ok (some (.resolved row cwd method)) final) :
    final = world ∧ hints.prBranch = some row.branchName ∧
      findWorktreeByBranch resolver.provider.tree (outside.git .listWorktrees) repoPath
        row.branchName world = .ok (some row.workingPath) := by
  rw [tryBranchAdoption] at ran
  split at ran
  · cases ran
  next branch hinted =>
    rcases bind_ofExcept_eq_ok.mp ran with ⟨repo, valid, naming⟩
    rw [(toRepoPath_eq_ok valid).2] at naming
    rcases bind_ofExcept_eq_ok.mp naming with ⟨name, valid, looking⟩
    rw [toBranchName_eq_ok valid, bind_of_ok (run_read _)] at looking
    split at looking
    · cases looking
    · cases looking
    next existing found =>
      split at looking
      · rcases ownership_run resolver.provider outside existing repoPath world with
          ⟨owned, -⟩ | ⟨error, refused⟩
        · rw [bind_of_ok owned] at looking
          rcases bind_ofExcept_eq_ok.mp looking with ⟨id, -, ending⟩
          cases ending
          exact ⟨rfl, hinted, found⟩
        · rw [bind_of_error refused] at looking
          cases looking
      · cases looking

theorem tryBranchAdoption_checkedOut_iff {resolver : IsolationResolver Location} {outside : Outside}
    {world : World Location}
    (ran : (tryBranchAdoption resolver outside codebase repoPath hints workflowType
      workflowId).run world = .ok (some (.resolved row cwd method)) final) :
    final.checkedOut resolver.provider.tree repoPath row.workingPath = some row.branchName ↔
      AdoptionAgrees resolver.provider outside repoPath hints world := by
  rcases tryBranchAdoption_eq_ok ran with ⟨rfl, hinted, found⟩
  constructor
  · intro same branch existing otherHint otherFound
    rw [hinted] at otherHint
    cases otherHint
    rw [found] at otherFound
    cases otherFound
    exact same
  · intro agrees
    exact agrees row.branchName row.workingPath hinted found

/-- Exactly when the branch of an environment is the one checked out in its worktree, so
that destroying it, which removes no branch but the one it is given, removes that one. -/
theorem environment_branch_iff (resolver : IsolationResolver Location) (outside : Outside) :
    (∀ request world env final,
      (create resolver.provider outside request).run world = .ok env final →
      (final.checkedOut resolver.provider.tree request.base.canonicalRepoPath env.workingPath =
          some env.branchName ↔
        BranchAgrees resolver.provider outside request world)) ∧
    (∀ codebase repoPath hints workflowType workflowId world row cwd method final,
      (tryBranchAdoption resolver outside codebase repoPath hints workflowType workflowId).run world =
        .ok (some (.resolved row cwd method)) final →
      (final.checkedOut resolver.provider.tree repoPath row.workingPath = some row.branchName ↔
        AdoptionAgrees resolver.provider outside repoPath hints world)) ∧
    (∀ path options world location name, name ∈ world.branchesOf location →
      options.branchName ≠ some name →
      name ∈ ((destroy resolver.provider outside path options).run world).final.branchesOf
        location) := by
  refine ⟨?_, ?_, ?_⟩
  · intro request world env final ran
    exact create_checkedOut_iff ran
  · intro codebase repoPath hints workflowType workflowId world row cwd method final ran
    exact tryBranchAdoption_checkedOut_iff ran
  · intro path options world location name member other
    rcases destroyed_destroy resolver.provider outside path options world with
      ⟨repoPath, -, destroyed⟩
    exact destroyed.branches location name member (Or.inr (Or.inl other))

namespace BranchIdentity

/-- A clone with its default branch, and a pull request of a fork on the remote. -/
def world : World Path where
  directories := fun path =>
    if path = "/srv/app".toList then
      some { entry := some .checkout, repository := some "/srv/app".toList }
    else none
  repositories := fun path =>
    if path = "/srv/app".toList then
      some {
        head := some "main".toList
        branches := ["main".toList]
        tracking := ["main".toList]
        remoteBranches := ["main".toList]
        remoteRefs := ["pull/7/head".toList] }
    else none

def base : IsolationRequestBase where
  codebaseName := some "acme/app".toList
  canonicalRepoPath := "/srv/app".toList

def resolver : IsolationResolver Path where
  provider := UnforcedDestroy.provider
  storeCreate := fun _ => .ok "env-1".toList

def issue : IsolationRequest := .issue base "7".toList

def forkPr : IsolationRequest := .pr base "7".toList "feature".toList none true

end BranchIdentity

theorem environment_branch_issue :
    ∃ env final,
      (create BranchIdentity.resolver.provider UnforcedDestroy.outside BranchIdentity.issue).run
        BranchIdentity.world = .ok env final ∧
      final.checkedOut UnforcedDestroy.pathTree "/srv/app".toList env.workingPath =
        some env.branchName := by
  have runs : (match (create BranchIdentity.resolver.provider UnforcedDestroy.outside
      BranchIdentity.issue).run BranchIdentity.world with
      | .ok _ _ => true
      | .error _ _ => false) = true := by decide
  cases ran : (create BranchIdentity.resolver.provider UnforcedDestroy.outside
      BranchIdentity.issue).run BranchIdentity.world with
  | ok env final =>
      have agrees : BranchAgrees BranchIdentity.resolver.provider UnforcedDestroy.outside
          BranchIdentity.issue BranchIdentity.world := by
        intro other handed
        cases handed
        trivial
      exact ⟨env, final, rfl, ((environment_branch_iff BranchIdentity.resolver
        UnforcedDestroy.outside).1 _ _ env final ran).mpr agrees⟩
  | error error final =>
      rw [ran] at runs
      cases runs

/-- The worktree of a fork's PR has `pr-7-review` checked out and is reported with
`archon/pr-7-review`. -/
theorem environment_branch_forkPr :
    ¬∀ (provider : WorktreeProvider Path) (outside : Outside) (request : IsolationRequest)
      (world : World Path) (env : WorktreeEnvironment) (final : World Path),
      (create provider outside request).run world = .ok env final →
      final.checkedOut provider.tree request.base.canonicalRepoPath env.workingPath =
        some env.branchName := by
  intro always
  have differs : (match (create BranchIdentity.resolver.provider UnforcedDestroy.outside
      BranchIdentity.forkPr).run BranchIdentity.world with
      | .ok env final => decide (final.checkedOut UnforcedDestroy.pathTree "/srv/app".toList
          env.workingPath = some env.branchName)
      | .error _ _ => true) = false := by decide
  cases ran : (create BranchIdentity.resolver.provider UnforcedDestroy.outside
      BranchIdentity.forkPr).run BranchIdentity.world with
  | ok env final =>
      have same := always _ _ _ _ env final ran
      rw [ran] at differs
      exact absurd same (of_decide_eq_false differs)
  | error error final =>
      rw [ran] at differs
      cases differs

end HarnessAgent
