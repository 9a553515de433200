import HarnessAgent.Isolation.GitEffects

/-! # How a worktree comes to be created

The ways in which creating an environment can end, each with what has been found
before and what has been run.
-/

namespace HarnessAgent

open LexicalPath StatefulRun

variable {Location : Type} [DecidableEq Location]

namespace WorktreeProvider

variable (provider : WorktreeProvider Location) (outside : Outside)

def worktreeOfBranch (request : IsolationRequest) (world : World Location) :
    Except (List Char) (Option Path) :=
  match request with
  | .pr base _ prBranch _ _ =>
      findWorktreeByBranch provider.tree (outside.git .listWorktrees) base.canonicalRepoPath prBranch
        world
  | _ => .ok none

inductive FindEnds (request : IsolationRequest) (branchName : BranchName) (worktreePath : Path)
    (world : World Location) :
    Outcome IsolationError (World Location) (Option WorktreeEnvironment) → Prop where
  | refused (error : IsolationError) : FindEnds request branchName worktreePath world
      (.error error world)
  | atPath
      (present : worktreeExists provider.tree (outside.file .findWorktree) worktreePath world = true) :
      FindEnds request branchName worktreePath world
        (.ok (some ⟨worktreePath, branchName, .adopted none⟩) world)
  | byBranch {base : IsolationRequestBase} {identifier : List Char} {prBranch : BranchName}
      {prSha : Option (List Char)} {isForkPr : Bool} {existing : Path}
      (missing : worktreeExists provider.tree (outside.file .findWorktree) worktreePath world = false)
      (kind : request = .pr base identifier prBranch prSha isForkPr)
      (found : worktreeOfBranch provider outside request world = .ok (some existing))
      (present : world.hasEntry (provider.tree.locate existing) = true) :
      FindEnds request branchName worktreePath world
        (.ok (some ⟨existing, prBranch, .adopted (some .branch)⟩) world)
  | nothing
      (missing : worktreeExists provider.tree (outside.file .findWorktree) worktreePath world = false)
      (unfound : worktreeOfBranch provider outside request world = .ok none) :
      FindEnds request branchName worktreePath world (.ok none world)

theorem hasEntry_of_ownership {tree : FileTree Location}
    (owned : verifyWorktreeOwnership tree error worktreePath expectedRepo world = .ok ()) :
    world.hasEntry (tree.locate worktreePath) = true := by
  unfold verifyWorktreeOwnership at owned
  split at owned
  · cases owned
  · cases there : world.directories (tree.locate worktreePath) with
    | none =>
        rw [there] at owned
        cases owned
    | some directory =>
        cases entry : directory.entry with
        | none =>
            rw [there, Option.bind_some, entry] at owned
            cases owned
        | some entry => simp [World.hasEntry, there, entry]

theorem ownership_run (worktreePath repoPath : Path) (world : World Location) :
    ((ownership provider outside worktreePath repoPath).run world = .ok () world ∧
      world.hasEntry (provider.tree.locate worktreePath) = true) ∨
      ∃ error, (ownership provider outside worktreePath repoPath).run world = .error error world := by
  rw [ownership]
  dsimp only
  split
  next owned => exact Or.inl ⟨rfl, hasEntry_of_ownership owned⟩
  · exact Or.inr ⟨_, rfl⟩

omit [DecidableEq Location] in
theorem ofExcept_run {α : Type} (result : Except IsolationError α) (world : World Location) :
    (∃ value, result = .ok value ∧
      (ofExcept result : Run Location α).run world = .ok value world) ∨
      ∃ error, (ofExcept result : Run Location α).run world = .error error world := by
  cases result with
  | ok value => exact Or.inl ⟨value, rfl, rfl⟩
  | error error => exact Or.inr ⟨error, rfl⟩

theorem toBranchName_eq_ok (accepted : toBranchName name = .ok branch) : branch = name := by
  rw [toBranchName] at accepted
  split at accepted
  · cases accepted
  · cases accepted
    rfl

theorem toWorktreePath_eq_ok (accepted : toWorktreePath path = .ok worktreePath) :
    worktreePath = path := by
  rw [toWorktreePath] at accepted
  split at accepted
  · cases accepted
  · cases accepted
    rfl

theorem findExistingByBranch_ends {request : IsolationRequest} (branchName : BranchName)
    (missing : worktreeExists provider.tree (outside.file .findWorktree) worktreePath world = false) :
    FindEnds provider outside request branchName worktreePath world
      ((findExistingByBranch provider outside request).run world) := by
  cases request with
  | issue base identifier => exact .nothing missing rfl
  | review base identifier => exact .nothing missing rfl
  | thread base identifier => exact .nothing missing rfl
  | task base identifier fromBranch => exact .nothing missing rfl
  | pr base identifier prBranch prSha isForkPr =>
      rw [findExistingByBranch]
      rcases ofExcept_run (toRepoPath base.canonicalRepoPath) world with
        ⟨repoPath, accepted, ran⟩ | ⟨error, ran⟩
      · rw [bind_of_ok ran]
        rcases (toRepoPath_eq_ok accepted).2 with rfl
        rcases ofExcept_run (toBranchName prBranch) world with ⟨branch, named, ran⟩ | ⟨error, ran⟩
        · rw [bind_of_ok ran, bind_of_ok (run_read world)]
          rcases toBranchName_eq_ok named with rfl
          split
          · exact .refused _
          · next unfound => exact .nothing missing unfound
          · next existing found =>
              rcases ownership_run provider outside existing base.canonicalRepoPath world with
                ⟨ran, present⟩ | ⟨error, ran⟩
              · rw [bind_of_ok ran]
                exact .byBranch missing rfl found present
              · rw [bind_of_error ran]
                exact .refused error
        · rw [bind_of_error ran]
          exact .refused error
      · rw [bind_of_error ran]
        exact .refused error

variable (request : IsolationRequest)

theorem findExisting_ends (branchName : BranchName)
    (worktreePath : Path) (world : World Location) :
    FindEnds provider outside request branchName worktreePath world
      ((findExisting provider outside request branchName worktreePath).run world) := by
  rw [findExisting]
  rcases ofExcept_run (toWorktreePath worktreePath) world with ⟨path, accepted, ran⟩ | ⟨error, ran⟩
  · rw [bind_of_ok ran, bind_of_ok (run_read world)]
    rcases toWorktreePath_eq_ok accepted with rfl
    split
    next present =>
      rcases ofExcept_run (toRepoPath request.base.canonicalRepoPath) world with
        ⟨repoPath, accepted, ran⟩ | ⟨error, ran⟩
      · rw [bind_of_ok ran]
        rcases ownership_run provider outside path repoPath world with ⟨ran, -⟩ | ⟨error, ran⟩
        · rw [bind_of_ok ran]
          exact .atPath present
        · rw [bind_of_error ran]
          exact .refused error
      · rw [bind_of_error ran]
        exact .refused error
    next missing =>
      exact findExistingByBranch_ends provider outside branchName (by simpa using missing)
  · rw [bind_of_error ran]
    exact .refused error

def configOf (request : IsolationRequest) : Option WorktreeCreateConfig :=
  provider.loadConfig request.base.canonicalRepoPath

def branchNameOf (request : IsolationRequest) : BranchName :=
  generateBranchName provider.shortHash request

def worktreePathOf (request : IsolationRequest) : Except IsolationError Path :=
  getWorktreePath provider.around request (branchNameOf provider request) (configOf provider request)

inductive CreateEnds (request : IsolationRequest) (world : World Location) :
    Outcome IsolationError (World Location) WorktreeEnvironment → Prop where
  | refused (error : IsolationError) : CreateEnds request world (.error error world)
  | atPath {worktreePath : Path} (path : worktreePathOf provider request = .ok worktreePath)
      (present : worktreeExists provider.tree (outside.file .findWorktree) worktreePath world = true) :
      CreateEnds request world
        (.ok ⟨worktreePath, branchNameOf provider request, .adopted none⟩ world)
  | byBranch {worktreePath : Path} {base : IsolationRequestBase} {identifier : List Char}
      {prBranch : BranchName} {prSha : Option (List Char)} {isForkPr : Bool} {existing : Path}
      (path : worktreePathOf provider request = .ok worktreePath)
      (missing : worktreeExists provider.tree (outside.file .findWorktree) worktreePath world = false)
      (kind : request = .pr base identifier prBranch prSha isForkPr)
      (found : worktreeOfBranch provider outside request world = .ok (some existing))
      (present : world.hasEntry (provider.tree.locate existing) = true) :
      CreateEnds request world (.ok ⟨existing, prBranch, .adopted (some .branch)⟩ world)
  | failed {worktreePath : Path} {error : IsolationError} {final : World Location}
      (path : worktreePathOf provider request = .ok worktreePath)
      (missing : worktreeExists provider.tree (outside.file .findWorktree) worktreePath world = false)
      (unfound : worktreeOfBranch provider outside request world = .ok none)
      (ran : (createWorktree provider outside request worktreePath (branchNameOf provider request)
        (configOf provider request)).run world = .error error final) :
      CreateEnds request world (.error error final)
  | created {worktreePath : Path} {final : World Location}
      (path : worktreePathOf provider request = .ok worktreePath)
      (missing : worktreeExists provider.tree (outside.file .findWorktree) worktreePath world = false)
      (unfound : worktreeOfBranch provider outside request world = .ok none)
      (ran : (createWorktree provider outside request worktreePath (branchNameOf provider request)
        (configOf provider request)).run world = .ok () final) :
      CreateEnds request world (.ok ⟨worktreePath, branchNameOf provider request, .created⟩ final)

theorem create_eq :
    create provider outside request = (do
      let worktreePath ← ofExcept (worktreePathOf provider request)
      match ← findExisting provider outside request (branchNameOf provider request) worktreePath with
      | some existing => pure existing
      | none => do
          createWorktree provider outside request worktreePath (branchNameOf provider request)
            (configOf provider request)
          pure ⟨worktreePath, branchNameOf provider request, .created⟩) := rfl

theorem create_ends (world : World Location) :
    CreateEnds provider outside request world ((create provider outside request).run world) := by
  rw [create_eq]
  rcases ofExcept_run (worktreePathOf provider request) world with
    ⟨worktreePath, path, ran⟩ | ⟨error, ran⟩
  · rw [bind_of_ok ran]
    have ends := findExisting_ends provider outside request (branchNameOf provider request)
      worktreePath world
    generalize answer : (findExisting provider outside request (branchNameOf provider request)
      worktreePath).run world = outcome at ends
    cases ends with
    | refused error =>
        rw [bind_of_error answer]
        exact .refused error
    | atPath present =>
        rw [bind_of_ok answer]
        exact .atPath path present
    | byBranch missing kind found present =>
        rw [bind_of_ok answer]
        exact .byBranch path missing kind found present
    | nothing missing unfound =>
        rw [bind_of_ok answer]
        cases ran : (createWorktree provider outside request worktreePath
            (branchNameOf provider request) (configOf provider request)).run world with
        | ok value final =>
            rw [bind_of_ok ran]
            exact .created path missing unfound ran
        | error error final =>
            rw [bind_of_error ran]
            exact .failed path missing unfound ran
  · rw [bind_of_error ran]
    exact .refused error

def environmentOf (request : IsolationRequest) (world : World Location) :
    Option WorktreeEnvironment :=
  match worktreePathOf provider request with
  | .error _ => none
  | .ok worktreePath =>
      if worktreeExists provider.tree (outside.file .findWorktree) worktreePath world then
        some ⟨worktreePath, branchNameOf provider request, .adopted none⟩
      else
        match request, worktreeOfBranch provider outside request world with
        | .pr _ _ prBranch _ _, .ok (some existing) =>
            some ⟨existing, prBranch, .adopted (some .branch)⟩
        | _, _ => some ⟨worktreePath, branchNameOf provider request, .created⟩

theorem environmentOf_eq {request : IsolationRequest}
    (ran : (create provider outside request).run world = .ok env final) :
    environmentOf provider outside request world = some env := by
  have ends := create_ends provider outside request world
  rw [ran] at ends
  cases ends with
  | atPath path present => simp only [environmentOf, path, present, if_true]
  | byBranch path missing kind found present =>
      subst kind
      simp only [environmentOf, path, missing, found, Bool.false_eq_true, if_false]
  | created path missing unfound created =>
      simp only [environmentOf, path, missing, unfound, Bool.false_eq_true, if_false]

/-- How making a worktree ends: the base directory is made first, and after git has
added the worktree it is filled. -/
inductive CreateWorktreeEnds (request : IsolationRequest) (worktreePath : Path)
    (branchName : BranchName) (config : Option WorktreeCreateConfig) (world : World Location) :
    Outcome IsolationError (World Location) Unit → Prop where
  | refused (error : IsolationError) :
      CreateWorktreeEnds request worktreePath branchName config world (.error error world)
  | notAdded {baseBranch : BranchName} {baseDir : Path} {error : IsolationError}
      {final : World Location}
      (adding : (addWorktree provider outside request worktreePath branchName baseBranch).run
        (world.makeParents provider.tree (provider.tree.locate baseDir)) = .error error final) :
      CreateWorktreeEnds request worktreePath branchName config world (.error error final)
  | notInitialized {baseBranch : BranchName} {baseDir : Path} {added : World Location}
      {error : IsolationError} {final : World Location}
      (adding : (addWorktree provider outside request worktreePath branchName baseBranch).run
        (world.makeParents provider.tree (provider.tree.locate baseDir)) = .ok () added)
      (filling : (initSubmodulesUnlessOptedOut provider outside worktreePath config).run added =
        .error error final) :
      CreateWorktreeEnds request worktreePath branchName config world (.error error final)
  | done {baseBranch : BranchName} {baseDir : Path} {added filled : World Location}
      (adding : (addWorktree provider outside request worktreePath branchName baseBranch).run
        (world.makeParents provider.tree (provider.tree.locate baseDir)) = .ok () added)
      (filling : (initSubmodulesUnlessOptedOut provider outside worktreePath config).run added =
        .ok () filled) :
      CreateWorktreeEnds request worktreePath branchName config world
        (.ok () (copyConfiguredFiles provider outside request.base.canonicalRepoPath worktreePath
          config filled))

theorem createWorktree_ends (worktreePath : Path)
    (branchName : BranchName) (config : Option WorktreeCreateConfig) (world : World Location) :
    CreateWorktreeEnds provider outside request worktreePath branchName config world
      ((createWorktree provider outside request worktreePath branchName config).run world) := by
  rw [createWorktree]
  rcases ofExcept_run outside.sync world with ⟨baseBranch, -, ran⟩ | ⟨error, ran⟩
  · rw [bind_of_ok ran]
    rcases ofExcept_run (baseDirectory provider.around request config) world with
      ⟨baseDir, -, ran⟩ | ⟨error, ran⟩
    · rw [bind_of_ok ran]
      cases broken : outside.file .makeBase with
      | some error => exact .refused _
      | none =>
          rw [bind_of_ok (show (mkdirAsync provider.tree none baseDir).run world =
            .ok () (world.makeParents provider.tree (provider.tree.locate baseDir)) from rfl)]
          cases adding : (addWorktree provider outside request worktreePath branchName
              baseBranch).run (world.makeParents provider.tree (provider.tree.locate baseDir)) with
          | error error final =>
              rw [bind_of_error adding]
              exact .notAdded adding
          | ok value added =>
              rw [bind_of_ok adding]
              cases filling : (initSubmodulesUnlessOptedOut provider outside worktreePath
                  config).run added with
              | error error final =>
                  rw [bind_of_error filling]
                  exact .notInitialized adding filling
              | ok value filled =>
                  rw [bind_of_ok filling]
                  exact .done adding filling
    · rw [bind_of_error ran]
      exact .refused error
  · rw [bind_of_error ran]
    exact .refused error

omit [DecidableEq Location] in
theorem removeDirAll_final (tree : FileTree Location) (error : Option IoError) (path : Path)
    (world : World Location) :
    ((removeDirAll tree error path).run world).final = world ∨
      ((removeDirAll tree error path).run world).final =
        world.removeTree tree (tree.locate path) := by
  rw [removeDirAll]
  dsimp only
  split
  next error =>
    cases acted : error.acted with
    | true => exact Or.inr rfl
    | false => exact Or.inl rfl
  next =>
    split
    · exact Or.inr rfl
    · exact Or.inl rfl

omit [DecidableEq Location] in
/-- Before a worktree is added, nothing is removed but the directory in its place, and
that only when it shows no `.git` entry. -/
theorem cleanOrphanDirectory_final (worktreePath : Path) (world : World Location) :
    ((cleanOrphanDirectoryIfExists provider outside worktreePath).run world).final = world ∨
      (worktreeExists provider.tree (outside.file .orphanEntry) worktreePath world = false ∧
        ((cleanOrphanDirectoryIfExists provider outside worktreePath).run world).final =
          world.removeTree provider.tree (provider.tree.locate worktreePath)) := by
  rw [cleanOrphanDirectoryIfExists]
  cases broken : outside.file .orphan with
  | some error =>
      left
      rfl
  | none =>
      rw [bind_of_ok (show (directoryExists provider.tree none worktreePath).run world =
        .ok (world.directories (provider.tree.locate worktreePath)).isSome world from rfl),
        bind_of_ok (run_read world)]
      cases (world.directories (provider.tree.locate worktreePath)).isSome with
      | false => exact Or.inl rfl
      | true =>
          cases seen : worktreeExists provider.tree (outside.file .orphanEntry) worktreePath world with
          | true => exact Or.inl rfl
          | false =>
              rcases removeDirAll_final provider.tree (outside.file .removeOrphan) worktreePath world
                with kept | removed
              · exact Or.inl ((final_mapError _ _ _).trans kept)
              · exact Or.inr ⟨rfl, (final_mapError _ _ _).trans removed⟩

end WorktreeProvider

end HarnessAgent
