import HarnessAgent.Isolation.ResolveCascade
import HarnessAgent.Isolation.Rollback

/-! # What the resolver hands out

Every stage checks that a worktree is there and that it belongs to the repository, and
the stages are in order of preference: what is handed out is compared with what was there
to find.
-/

namespace HarnessAgent

open LexicalPath StatefulRun

namespace IsolationResolver

variable {Location : Type} [DecidableEq Location]

open WorktreeProvider IsolationStore

/-! ## Whose worktree it is -/

/-- The `.git` entry at a path points into the repository at another path. A pointer
that is checked is compared by where it leads; one that git has written leads to what git
finds from there. -/
def NamesRepository (tree : FileTree Location) (world : World Location)
    (workingPath repoPath : Path) : Prop :=
  ∃ content existing, world.entryAt (tree.locate workingPath) = some (.pointer content) ∧
    "gitdir: ".toList ++ existing ++ "/.git/worktrees/".toList <+: content ∧
    (resolvedPath tree world existing = resolvedPath tree world repoPath ∨
      world.ownerAt (tree.locate repoPath) = some (tree.locate existing))

theorem extractRepoFromGitdir_isPrefix (extracted : extractRepoFromGitdir content = some existing) :
    "gitdir: ".toList ++ existing ++ "/.git/worktrees/".toList <+: content := by
  rw [extractRepoFromGitdir] at extracted
  dsimp only at extracted
  split at extracted
  next starts =>
    have member := List.mem_of_getLast? extracted
    rw [List.mem_filter, List.mem_inits] at member
    rcases member with ⟨⟨tail, split⟩, marked⟩
    rcases List.isPrefixOf_iff_prefix.mp starts with ⟨rest, line⟩
    have dropped : (content.takeWhile (· ≠ '\n')).drop "gitdir: ".length = rest := by
      rw [← line]
      exact List.drop_left
    rw [dropped] at split marked
    rw [← split, List.drop_left] at marked
    have marker := List.isPrefixOf_iff_prefix.mp marked
    have whole : "gitdir: ".toList ++ existing ++ "/.git/worktrees/".toList <+:
        content.takeWhile (· ≠ '\n') := by
      rw [← line, ← split, List.append_assoc]
      exact List.prefix_append_right_inj _ |>.mpr ((List.prefix_append_right_inj _).mpr marker)
    exact whole.trans (List.takeWhile_prefix _)
  next => cases extracted

variable {repoPath workingPath : Path} {world : World Location}

theorem namesRepository_of_verified {tree : FileTree Location}
    (verified : verifyWorktreeOwnership tree error workingPath repoPath world = .ok ()) :
    NamesRepository tree world workingPath repoPath := by
  unfold verifyWorktreeOwnership at verified
  split at verified
  · cases verified
  · split at verified
    · cases verified
    · cases verified
    next content entry =>
      split at verified
      · cases verified
      next existing extracted =>
        split at verified
        · cases verified
        next same =>
          exact ⟨content, existing, entry, extractRepoFromGitdir_isPrefix extracted,
            Or.inl (Decidable.not_not.mp same)⟩

omit [DecidableEq Location] in
theorem NamesRepository.present {tree : FileTree Location}
    (names : NamesRepository tree world workingPath repoPath) :
    world.hasEntry (tree.locate workingPath) = true := by
  rcases names with ⟨content, existing, entry, -, -⟩
  rw [World.hasEntry_eq, entry]
  rfl

variable {outside : Outside} {provider : WorktreeProvider Location}

theorem namesRepository_of_ownership {final : World Location}
    (ran : (ownership provider outside workingPath repoPath).run world = .ok () final) :
    final = world ∧ NamesRepository provider.tree world workingPath repoPath := by
  rw [ownership] at ran
  dsimp only at ran
  split at ran
  next verified =>
    cases ran
    exact ⟨rfl, namesRepository_of_verified verified⟩
  next => cases ran

theorem namesRepository_of_findExisting {request : IsolationRequest} {final : World Location}
    {env : WorktreeEnvironment}
    (ran : (findExisting provider outside request branchName worktreePath).run world =
      .ok (some env) final) :
    NamesRepository provider.tree final env.workingPath request.base.canonicalRepoPath := by
  rw [findExisting] at ran
  rcases bind_ofExcept_eq_ok.mp ran with ⟨path, -, reading⟩
  rw [bind_of_ok (run_read _)] at reading
  split at reading
  · rcases bind_ofExcept_eq_ok.mp reading with ⟨repo, valid, checking⟩
    rw [(toRepoPath_eq_ok valid).2] at checking
    rcases bind_eq_ok.mp checking with ⟨checks, after, checked, ending⟩
    rcases namesRepository_of_ownership checked with ⟨rfl, names⟩
    cases ending
    exact names
  · rw [findExistingByBranch.eq_def] at reading
    split at reading
    next base identifier prBranch prSha isForkPr =>
      rcases bind_ofExcept_eq_ok.mp reading with ⟨repo, valid, naming⟩
      rw [(toRepoPath_eq_ok valid).2] at naming
      rcases bind_ofExcept_eq_ok.mp naming with ⟨name, -, looking⟩
      rw [bind_of_ok (run_read _)] at looking
      split at looking
      · cases looking
      · cases looking
      next existing found =>
        rcases bind_eq_ok.mp looking with ⟨checks, after, checked, ending⟩
        rcases namesRepository_of_ownership checked with ⟨rfl, names⟩
        cases ending
        exact names
    next => cases reading

omit [DecidableEq Location] in
theorem isPrefix_pointerTo (tree : FileTree Location) (location : Location) (path : Path) :
    "gitdir: ".toList ++ tree.spell location ++ "/.git/worktrees/".toList <+:
      Git.pointerTo tree location path := by
  unfold Git.pointerTo
  exact (List.prefix_append _ _).trans (List.prefix_append _ _)

theorem namesRepository_of_create {request : IsolationRequest} {final : World Location}
    {env : WorktreeEnvironment}
    (ran : (create provider outside request).run world = .ok env final) :
    NamesRepository provider.tree final env.workingPath request.base.canonicalRepoPath := by
  rw [create_eq] at ran
  rcases bind_ofExcept_eq_ok.mp ran with ⟨worktreePath, -, finding⟩
  rcases bind_eq_ok.mp finding with ⟨found, between, found_run, ending⟩
  cases found with
  | some existing =>
      cases ending
      exact namesRepository_of_findExisting found_run
  | none =>
      rcases bind_eq_ok.mp ending with ⟨checks, after, created, rest⟩
      cases rest
      rcases placedFor_createWorktree provider outside created with
        ⟨location, branch, -, placed, -⟩
      refine ⟨_, provider.tree.spell location, placed.pointer, ?_, Or.inr ?_⟩
      · exact isPrefix_pointerTo provider.tree location _
      · rw [provider.tree.locate_spell]
        exact placed.owner

/-! ## What is met on the way -/

/-- An environment that is looked for among the recorded ones, with the failures on
the way to it. -/
structure Candidate where
  faults : ReuseFaults
  workflowType : IsolationWorkflowType
  workflowId : List Char
  method : ResolutionMethod

def Candidate.found (candidate : Candidate) (codebaseId : List Char)
    (rows : List IsolationEnvironmentRow) : Option IsolationEnvironmentRow :=
  rows.find? (activeFor codebaseId candidate.workflowType candidate.workflowId)

def workflowCandidates (faults : ReuseFaults) (workflowType : IsolationWorkflowType)
    (workflowId : List Char) : List Candidate :=
  if workflowId = [] then [] else [⟨faults, workflowType, workflowId, .workflowReuse⟩]

def linkedCandidates (faults : Nat → ReuseFaults) : Nat → List Nat → List Candidate
  | _, [] => []
  | position, issueNumber :: rest =>
      ⟨faults position, .issue, (toString issueNumber).toList, .linkedIssueReuse issueNumber⟩ ::
        linkedCandidates faults (position + 1) rest

def candidates (outside : ResolveOutside) (hints : Option IsolationHints) : List Candidate :=
  workflowCandidates outside.workflow (workflowTypeOf hints) (workflowIdOf hints) ++
    linkedCandidates outside.linked 0 ((hints.getD {}).linkedIssues.getD [])

abbrev Stale := ReuseFaults × IsolationEnvironmentRow

def markedIds (stale : List Stale) : List (List Char) :=
  (stale.filter (·.1.update.isNone)).map (·.2.id)

inductive Passed (tree : FileTree Location) (codebaseId : List Char) (world : World Location) :
    List Candidate → List IsolationEnvironmentRow → List Stale → List IsolationEnvironmentRow →
    Prop where
  | nil (rows : List IsolationEnvironmentRow) : Passed tree codebaseId world [] rows [] rows
  | absent {candidate : Candidate} {rest : List Candidate} {rows after : List IsolationEnvironmentRow}
      {stale : List Stale} (unrecorded : candidate.found codebaseId rows = none)
      (onward : Passed tree codebaseId world rest rows stale after) :
      Passed tree codebaseId world (candidate :: rest) rows stale after
  | stale {candidate : Candidate} {rest : List Candidate} {rows after : List IsolationEnvironmentRow}
      {row : IsolationEnvironmentRow} {stale : List Stale}
      (recorded : candidate.found codebaseId rows = some row)
      (missing : worktreeExists tree candidate.faults.access row.workingPath world = false)
      (onward : Passed tree codebaseId world rest
        (rows.map (withDestroyed (markedIds [(candidate.faults, row)]))) stale after) :
      Passed tree codebaseId world (candidate :: rest) rows ((candidate.faults, row) :: stale) after

theorem withDestroyed_append (first second : List (List Char)) (row : IsolationEnvironmentRow) :
    withDestroyed second (withDestroyed first row) = withDestroyed (first ++ second) row := by
  rw [withDestroyed, withDestroyed, withDestroyed]
  by_cases one : row.id ∈ first
  · by_cases two : row.id ∈ second
    · simp [one, two]
    · simp [one, two]
  · by_cases two : row.id ∈ second
    · simp [one, two]
    · simp [one, two]

theorem withDestroyed_nil (row : IsolationEnvironmentRow) : withDestroyed [] row = row := by
  simp [withDestroyed]

omit [DecidableEq Location] in
theorem Passed.rows_eq {tree : FileTree Location} {codebaseId : List Char} {world : World Location}
    {passed : List Candidate} {rows after : List IsolationEnvironmentRow} {stale : List Stale}
    (onward : Passed tree codebaseId world passed rows stale after) :
    after = rows.map (withDestroyed (markedIds stale)) := by
  induction onward with
  | nil rows =>
      rw [show withDestroyed (markedIds []) = id from funext withDestroyed_nil, List.map_id]
  | absent unrecorded onward rows_eq => exact rows_eq
  | @stale candidate rest rows after row stale recorded missing onward rows_eq =>
      rw [rows_eq, List.map_map]
      apply List.map_congr_left
      intro other member
      rw [Function.comp_apply, withDestroyed_append, markedIds, markedIds, markedIds, ← List.map_append,
        ← List.filter_append, List.singleton_append]

section

variable (resolver : IsolationResolver Location) (codebase : CodebaseSummary)
  (canonicalRepoPath : Path)

def search : List Candidate → Resolving Location (Option IsolationResolution)
  | [] => pure none
  | candidate :: rest => do
      match ← tryReuse resolver candidate.faults codebase canonicalRepoPath candidate.workflowType
        candidate.workflowId candidate.method with
      | some resolution => pure (some resolution)
      | none => search rest

theorem linkedIssueLoop_eq (faults : Nat → ReuseFaults) (position : Nat) (issues : List Nat) :
    linkedIssueLoop resolver faults codebase canonicalRepoPath position issues =
      search resolver codebase canonicalRepoPath (linkedCandidates faults position issues) := by
  induction issues generalizing position with
  | nil => rfl
  | cons issueNumber rest loop =>
      rw [linkedIssueLoop, linkedCandidates, search]
      congr 1
      funext answer
      cases answer with
      | some resolution => rfl
      | none => exact loop (position + 1)

theorem otherwise_search_append (first second : List Candidate)
    (next : Resolving Location IsolationResolution) :
    otherwise (search resolver codebase canonicalRepoPath first)
        (otherwise (search resolver codebase canonicalRepoPath second) next) =
      otherwise (search resolver codebase canonicalRepoPath (first ++ second)) next := by
  induction first with
  | nil => rfl
  | cons candidate rest same =>
      have peel : ∀ others, otherwise (search resolver codebase canonicalRepoPath
          (candidate :: others)) = fun next => otherwise (tryReuse resolver candidate.faults codebase
          canonicalRepoPath candidate.workflowType candidate.workflowId candidate.method)
          (otherwise (search resolver codebase canonicalRepoPath others) next) := by
        intro others
        funext next
        rw [otherwise, otherwise, search, bind_assoc]
        congr 1
        funext answer
        cases answer with
        | some resolution => rfl
        | none => rfl
      rw [List.cons_append, peel, peel]
      dsimp only
      rw [same]

theorem resolveFor_eq (outside : ResolveOutside) (request : ResolveRequest) :
    resolveFor resolver outside request codebase canonicalRepoPath =
      otherwise
        (search resolver codebase canonicalRepoPath (candidates outside request.hints)) (
      otherwise
        (recording (fun adopted => adopted.bind recordOf)
          (tryBranchAdoption resolver outside.adopting codebase canonicalRepoPath
            (request.hints.getD {}) (workflowTypeOf request.hints) (workflowIdOf request.hints)))
        (do
          cleanupRows resolver outside
          recording recordOf
            (createNewEnvironment resolver outside.creating codebase canonicalRepoPath
              (workflowTypeOf request.hints) (workflowIdOf request.hints) request.hints
              request.platformType))) := by
  have own : (if workflowIdOf request.hints = [] then pure none
      else findReusableEnvironment resolver outside.workflow codebase canonicalRepoPath
        (workflowTypeOf request.hints) (workflowIdOf request.hints)) =
      search resolver codebase canonicalRepoPath (workflowCandidates outside.workflow
        (workflowTypeOf request.hints) (workflowIdOf request.hints)) := by
    rw [workflowCandidates]
    split
    · rfl
    · rw [findReusableEnvironment, search, search]
      symm
      refine Eq.trans ?_ (bind_pure _)
      congr 1
      funext answer
      cases answer with
      | some resolution => rfl
      | none => rfl
  rw [resolveFor, own, findLinkedIssueEnvironment, linkedIssueLoop_eq, otherwise_search_append, candidates]

end

variable {final state : ResolverState Location}

omit [DecidableEq Location] in
theorem onWorld_eq_ok {α : Type} {first : Run Location α} {value : α}
    (ran : (onWorld first).run state = .ok value final) :
    ∃ world, first.run state.world = .ok value world ∧ final = { state with world } := by
  rw [onWorld] at ran
  dsimp only at ran
  split at ran
  next value world ended =>
    cases ran
    exact ⟨world, ended, rfl⟩
  next => cases ran

omit [DecidableEq Location] in
theorem answer_eq_ok {α : Type} {fault : Option IsolationError} {value : ResolverState Location → α}
    {found : α} (ran : (answer fault value).run state = .ok found final) :
    found = value state ∧ final = state := by
  rw [answer] at ran
  dsimp only at ran
  split at ran
  · cases ran
  · cases ran
    exact ⟨rfl, rfl⟩

variable {resolver : IsolationResolver Location}

theorem assertWorktreeOwnership_eq_ok {canonicalRepoPath : Path} {final : World Location}
    (ran : (assertWorktreeOwnership resolver error canonicalRepoPath workingPath).run world =
      .ok () final) :
    final = world ∧ NamesRepository resolver.provider.tree world workingPath canonicalRepoPath := by
  rw [assertWorktreeOwnership] at ran
  rcases bind_ofExcept_eq_ok.mp ran with ⟨repo, valid, rest⟩
  rw [(toRepoPath_eq_ok valid).2] at rest
  rcases bind_ofExcept_eq_ok.mp rest with ⟨path, valid, checking⟩
  rw [toWorktreePath_eq_ok valid, bind_of_ok (run_read _)] at checking
  rcases ofExcept_eq_ok.mp checking with ⟨verified, rfl⟩
  cases outcome : verifyWorktreeOwnership resolver.provider.tree error workingPath
      canonicalRepoPath final with
  | error message =>
      rw [outcome] at verified
      cases verified
  | ok value => exact ⟨rfl, namesRepository_of_verified outcome⟩

inductive TryReuseEnds (resolver : IsolationResolver Location) (codebase : CodebaseSummary)
    (canonicalRepoPath : Path) (candidate : Candidate) (state : ResolverState Location) :
    Option IsolationResolution → ResolverState Location → Prop where
  | absent (unrecorded : candidate.found codebase.id state.rows = none) :
      TryReuseEnds resolver codebase canonicalRepoPath candidate state none state
  | stale {row : IsolationEnvironmentRow}
      (recorded : candidate.found codebase.id state.rows = some row)
      (missing : worktreeExists resolver.provider.tree candidate.faults.access row.workingPath
        state.world = false) :
      TryReuseEnds resolver codebase canonicalRepoPath candidate state none
        { state with rows := state.rows.map (withDestroyed (markedIds [(candidate.faults, row)])) }
  | reused {row : IsolationEnvironmentRow}
      (recorded : candidate.found codebase.id state.rows = some row)
      (names : NamesRepository resolver.provider.tree state.world row.workingPath
        canonicalRepoPath) :
      TryReuseEnds resolver codebase canonicalRepoPath candidate state
        (some (.resolved row row.workingPath candidate.method)) state

omit [DecidableEq Location] in
theorem markDestroyedBestEffort_run (faults : ReuseFaults) (row : IsolationEnvironmentRow)
    (state : ResolverState Location) :
    (markDestroyedBestEffort faults.update row.id).run state =
      .ok () { state with rows := state.rows.map (withDestroyed (markedIds [(faults, row)])) } := by
  rw [markDestroyedBestEffort, run_modify]
  cases refused : faults.update with
  | none => simp [markedIds, refused]
  | some error =>
      have kept : withDestroyed (markedIds [(faults, row)]) = id := by
        simp only [markedIds, refused, Option.isNone_some, Bool.false_eq_true, not_false_iff,
          List.filter_cons_of_neg, List.filter_nil, List.map_nil]
        exact funext withDestroyed_nil
      rw [kept, List.map_id]

variable {answer : Option IsolationResolution} {candidate : Candidate}

variable {codebase : CodebaseSummary}

theorem tryReuse_ends {canonicalRepoPath : Path}
    (ran : (tryReuse resolver candidate.faults codebase canonicalRepoPath candidate.workflowType
      candidate.workflowId candidate.method).run state = .ok answer final) :
    TryReuseEnds resolver codebase canonicalRepoPath candidate state answer final := by
  rw [tryReuse] at ran
  rcases bind_eq_ok.mp ran with ⟨found, start, looking, rest⟩
  rcases answer_eq_ok looking with ⟨lookup, rfl⟩
  cases found with
  | none =>
      cases rest
      exact .absent lookup.symm
  | some row =>
      rcases bind_ofExcept_eq_ok.mp rest with ⟨path, valid, seeing⟩
      rw [toWorktreePath_eq_ok valid, bind_of_ok (run_read _)] at seeing
      split at seeing
      · rcases bind_eq_ok.mp seeing with ⟨checks, checked, checking, ending⟩
        rcases onWorld_eq_ok checking with ⟨world, owned, rfl⟩
        rcases assertWorktreeOwnership_eq_ok owned with ⟨rfl, names⟩
        cases ending
        exact .reused lookup.symm names
      next missing =>
        rw [bind_of_ok (markDestroyedBestEffort_run candidate.faults row _)] at seeing
        cases seeing
        exact .stale lookup.symm (Bool.not_eq_true _ ▸ missing)

structure Reused (tree : FileTree Location) (codebaseId : List Char) (repoPath : Path)
    (start : ResolverState Location) (among : List Candidate) (env : IsolationEnvironmentRow)
    (method : ResolutionMethod) (stale : List Stale) (final : ResolverState Location) : Prop where
  chosen : ∃ passed candidate later, among = passed ++ candidate :: later ∧
    Passed tree codebaseId start.world passed start.rows stale final.rows ∧
    candidate.found codebaseId final.rows = some env ∧ candidate.method = method
  world : final.world = start.world
  names : NamesRepository tree final.world env.workingPath repoPath

theorem search_eq_ok {canonicalRepoPath : Path}
    (ran : (search resolver codebase canonicalRepoPath among).run state = .ok answer final) :
    ∃ stale,
      (answer = none ∧ final.world = state.world ∧
        Passed resolver.provider.tree codebase.id state.world among state.rows stale final.rows) ∨
      ∃ env method, answer = some (.resolved env env.workingPath method) ∧
        Reused resolver.provider.tree codebase.id canonicalRepoPath state among env method stale
          final := by
  induction among generalizing state with
  | nil =>
      cases ran
      exact ⟨[], Or.inl ⟨rfl, rfl, .nil _⟩⟩
  | cons candidate rest onward =>
      rw [search] at ran
      rcases bind_eq_ok.mp ran with ⟨first, between, trying, rest_ran⟩
      have ends := tryReuse_ends trying
      cases ends with
      | absent unrecorded =>
          rcases onward rest_ran with ⟨stale, ⟨nothing, same, passed⟩ | ⟨env, method, found, reused⟩⟩
          · exact ⟨stale, Or.inl ⟨nothing, same, .absent unrecorded passed⟩⟩
          · rcases reused.chosen with ⟨passed, chosen, later, split, before, recorded, how⟩
            refine ⟨stale, Or.inr ⟨env, method, found, ⟨?_, reused.world, reused.names⟩⟩⟩
            exact ⟨candidate :: passed, chosen, later, by rw [split, List.cons_append],
              .absent unrecorded before, recorded, how⟩
      | @stale row recorded missing =>
          rcases onward rest_ran with ⟨stale, ⟨nothing, same, passed⟩ | ⟨env, method, found, reused⟩⟩
          · exact ⟨_, Or.inl ⟨nothing, same, .stale recorded missing passed⟩⟩
          · rcases reused.chosen with ⟨passed, chosen, later, split, before, found_row, how⟩
            refine ⟨(candidate.faults, row) :: stale, Or.inr ⟨env, method, found,
              ⟨?_, reused.world, reused.names⟩⟩⟩
            exact ⟨candidate :: passed, chosen, later, by rw [split, List.cons_append],
              .stale recorded missing before, found_row, how⟩
      | @reused row recorded names =>
          cases rest_ran
          refine ⟨[], Or.inr ⟨row, candidate.method, rfl, ⟨?_, rfl, names⟩⟩⟩
          exact ⟨[], candidate, rest, rfl, .nil _, recorded, rfl⟩

/-! ## What is handed out -/

def Unadoptable (provider : WorktreeProvider Location) (outside : Outside) (repoPath : Path)
    (hints : IsolationHints) (world : World Location) : Prop :=
  ∀ branch existing, hints.prBranch = some branch →
    findWorktreeByBranch provider.tree (outside.git .listWorktrees) repoPath branch world =
      .ok (some existing) →
    worktreeExists provider.tree (outside.file .findWorktree) existing world = false

inductive AdoptionEnds (resolver : IsolationResolver Location) (outside : Outside) (repoPath : Path)
    (hints : IsolationHints) (world : World Location) : Option IsolationResolution → Prop where
  | nothing (unadoptable : Unadoptable resolver.provider outside repoPath hints world) :
      AdoptionEnds resolver outside repoPath hints world none
  | adopted {env : IsolationEnvironmentRow} (hinted : hints.prBranch = some env.branchName)
      (found : findWorktreeByBranch resolver.provider.tree (outside.git .listWorktrees) repoPath
        env.branchName world = .ok (some env.workingPath))
      (names : NamesRepository resolver.provider.tree world env.workingPath repoPath) :
      AdoptionEnds resolver outside repoPath hints world
        (some (.resolved env env.workingPath (.branchAdoption env.branchName)))

theorem tryBranchAdoption_ends {final : World Location}
    (ran : (tryBranchAdoption resolver outside codebase repoPath hints workflowType
      workflowId).run world = .ok answer final) :
    final = world ∧ AdoptionEnds resolver outside repoPath hints world answer := by
  rw [tryBranchAdoption] at ran
  split at ran
  next unhinted =>
    cases ran
    refine ⟨rfl, .nothing ?_⟩
    intro branch existing hinted
    rw [unhinted] at hinted
    cases hinted
  next branch hinted =>
    rcases bind_ofExcept_eq_ok.mp ran with ⟨repo, valid, naming⟩
    rw [(toRepoPath_eq_ok valid).2] at naming
    rcases bind_ofExcept_eq_ok.mp naming with ⟨name, valid, looking⟩
    rw [toBranchName_eq_ok valid, bind_of_ok (run_read _)] at looking
    have only : ∀ other existing, hints.prBranch = some other →
        findWorktreeByBranch resolver.provider.tree (outside.git .listWorktrees) repoPath other
          world = .ok (some existing) →
        findWorktreeByBranch resolver.provider.tree (outside.git .listWorktrees) repoPath branch
          world = .ok (some existing) := by
      intro other existing otherHint otherFound
      rw [hinted] at otherHint
      cases otherHint
      exact otherFound
    split at looking
    · cases looking
    next nothing =>
      cases looking
      refine ⟨rfl, .nothing ?_⟩
      intro other existing otherHint otherFound
      rw [only other existing otherHint otherFound] at nothing
      cases nothing
    next existing found =>
      split at looking
      next seen =>
        rcases bind_eq_ok.mp looking with ⟨checks, checked, checking, storing⟩
        rcases namesRepository_of_ownership checking with ⟨rfl, names⟩
        rcases bind_ofExcept_eq_ok.mp storing with ⟨id, -, ending⟩
        cases ending
        refine ⟨rfl, ?_⟩
        apply AdoptionEnds.adopted
        · exact hinted
        · exact found
        · exact names
      next unseen =>
        cases looking
        refine ⟨rfl, .nothing ?_⟩
        intro other otherExisting otherHint otherFound
        rw [only other otherExisting otherHint otherFound] at found
        cases found
        exact Bool.not_eq_true _ ▸ unseen

variable {env : IsolationEnvironmentRow} {method : ResolutionMethod} {cwd : Path}

theorem createNewEnvironment_names {final : World Location}
    (ran : (createNewEnvironment resolver outside codebase repoPath workflowType workflowId hints
      platformType).run world = .ok (.resolved env cwd method) final) :
    (∃ count, method = .created count) ∧ cwd = env.workingPath ∧
      NamesRepository resolver.provider.tree final cwd repoPath := by
  rw [createNewEnvironment] at ran
  rcases bind_eq_ok.mp ran with ⟨cleaned, room, -, building⟩
  rcases bind_ofExcept_eq_ok.mp building with ⟨request, built, creating⟩
  rw [createOrBlock] at creating
  dsimp only at creating
  split at creating
  next created after creation =>
    have names := namesRepository_of_create creation
    rw [base_of_built built] at names
    rw [persist] at creating
    dsimp only at creating
    split at creating
    · cases creating
      exact ⟨⟨_, rfl⟩, rfl, names⟩
    · cases creating
  · cases creating
  · split at creating
    · cases creating
    · cases creating

inductive Handed (resolver : IsolationResolver Location) (outside : ResolveOutside)
    (hints : Option IsolationHints) (codebase : CodebaseSummary) (repoPath : Path)
    (start : ResolverState Location) (env : IsolationEnvironmentRow) :
    ResolutionMethod → List Stale → ResolverState Location → Prop where
  | reused {passed later : List Candidate} {candidate : Candidate} {stale : List Stale}
      {rows : List IsolationEnvironmentRow}
      (order : candidates outside hints = passed ++ candidate :: later)
      (before : Passed resolver.provider.tree codebase.id start.world passed start.rows stale rows)
      (recorded : candidate.found codebase.id rows = some env) :
      Handed resolver outside hints codebase repoPath start env candidate.method stale
        ⟨start.world, rows⟩
  | adopted {stale : List Stale} {rows : List IsolationEnvironmentRow}
      (before : Passed resolver.provider.tree codebase.id start.world (candidates outside hints)
        start.rows stale rows)
      (hinted : (hints.getD {}).prBranch = some env.branchName)
      (found : findWorktreeByBranch resolver.provider.tree (outside.adopting.git .listWorktrees)
        repoPath env.branchName start.world = .ok (some env.workingPath)) :
      Handed resolver outside hints codebase repoPath start env (.branchAdoption env.branchName)
        stale ⟨start.world, rows ++ [env]⟩
  | created {stale : List Stale} {rows : List IsolationEnvironmentRow} {count : Option Nat}
      {world : World Location}
      (before : Passed resolver.provider.tree codebase.id start.world (candidates outside hints)
        start.rows stale rows)
      (unadoptable : Unadoptable resolver.provider outside.adopting repoPath (hints.getD {})
        start.world) :
      Handed resolver outside hints codebase repoPath start env (.created count) stale
        ⟨world, (if resolver.cleanup.isSome then outside.cleanRows rows else rows) ++ [env]⟩

omit [DecidableEq Location] in
theorem recording_eq_ok {α : Type} {recorded : α → Option IsolationEnvironmentRow}
    {first : Run Location α} {value : α}
    (ran : (recording recorded first).run state = .ok value final) :
    ∃ world, first.run state.world = .ok value world ∧
      final = ⟨world, state.rows ++ (recorded value).toList⟩ := by
  rw [recording] at ran
  rcases bind_eq_ok.mp ran with ⟨middle, between, going, keeping⟩
  rcases onWorld_eq_ok going with ⟨world, attempt, rfl⟩
  cases keeping
  exact ⟨world, attempt, rfl⟩

variable {start : ResolverState Location}

theorem resolveFor_handed {outside : ResolveOutside} {request : ResolveRequest}
    (ran : (resolveFor resolver outside request codebase repoPath).run start =
      .ok (.resolved env cwd method) final) :
    cwd = env.workingPath ∧ NamesRepository resolver.provider.tree final.world cwd repoPath ∧
      ∃ stale, Handed resolver outside request.hints codebase repoPath start env method stale
        final := by
  rw [resolveFor_eq, otherwise] at ran
  rcases bind_eq_ok.mp ran with ⟨answer, ⟨world, rows⟩, searching, rest⟩
  rcases search_eq_ok searching with ⟨stale, ⟨rfl, same, passed⟩ | ⟨other, how, rfl, reused⟩⟩
  · cases same
    rw [otherwise] at rest
    rcases bind_eq_ok.mp rest with ⟨adoption, tried, adopting, creating⟩
    rcases recording_eq_ok adopting with ⟨world, attempt, rfl⟩
    rcases tryBranchAdoption_ends attempt with ⟨rfl, ends⟩
    cases ends with
    | adopted hinted found names =>
        cases creating
        exact ⟨rfl, names, stale, .adopted passed hinted found⟩
    | nothing unadoptable =>
        rcases bind_eq_ok.mp creating with ⟨cleans, cleaned, cleaning, creating⟩
        rcases recording_eq_ok creating with ⟨world, creation, rfl⟩
        rcases createNewEnvironment_names creation with ⟨⟨count, rfl⟩, rfl, names⟩
        refine ⟨rfl, names, stale, ?_⟩
        have room : cleaned.rows =
            if resolver.cleanup.isSome then outside.cleanRows rows else rows := by
          cases cleaning
          cases resolver.cleanup with
          | none => simp
          | some cleanup => simp
        rw [room]
        exact .created passed unadoptable
  · cases rest
    refine ⟨rfl, reused.names, stale, ?_⟩
    rcases reused.chosen with ⟨passed, candidate, later, order, before, recorded, rfl⟩
    cases reused.world
    exact .reused order before recorded

omit [DecidableEq Location] in
theorem canonicalPathOr_eq_resolved {onward : Path → Resolving Location IsolationResolution}
    (ran : (canonicalPathOr resolver outside codebase onward).run start =
      .ok (.resolved env cwd method) final) :
    ∃ repoPath,
      getCanonicalRepoPath resolver.provider outside codebase.defaultCwd start.world =
        .ok repoPath ∧
      (onward repoPath).run start = .ok (.resolved env cwd method) final := by
  rw [canonicalPathOr] at ran
  dsimp only at ran
  split at ran
  next repoPath canonical => exact ⟨repoPath, canonical, ran⟩
  · cases ran
  · split at ran
    · cases ran
    · cases ran

omit [DecidableEq Location] in
theorem checkExisting_method {faults : ReuseFaults} {envId : List Char}
    (ran : (checkExisting resolver faults envId).run start =
      .ok (some (.resolved env cwd method)) final) : method = .existing := by
  rw [checkExisting] at ran
  rcases bind_eq_ok.mp ran with ⟨found, between, looking, rest⟩
  cases found with
  | none => cases rest
  | some row =>
      rcases bind_eq_ok.mp rest with ⟨path, next, accepting, seeing⟩
      rw [bind_of_ok (run_read _)] at seeing
      split at seeing
      · cases seeing
        rfl
      · cases seeing

theorem method_of_mem_linkedCandidates
    (member : candidate ∈ linkedCandidates faults position issues) :
    ∃ issueNumber, candidate.method = .linkedIssueReuse issueNumber := by
  induction issues generalizing position with
  | nil => cases member
  | cons issueNumber rest others =>
      rcases List.mem_cons.mp member with rfl | later
      · exact ⟨issueNumber, rfl⟩
      · exact others later

theorem method_of_mem_candidates {outside : ResolveOutside}
    (member : candidate ∈ candidates outside hints) :
    candidate.method = .workflowReuse ∨
      ∃ issueNumber, candidate.method = .linkedIssueReuse issueNumber := by
  rcases List.mem_append.mp member with own | linked
  · rw [workflowCandidates] at own
    split at own
    · cases own
    · rcases List.mem_singleton.mp own with rfl
      exact Or.inl rfl
  · exact Or.inr (method_of_mem_linkedCandidates linked)

def newRows (env : IsolationEnvironmentRow) : ResolutionMethod → List IsolationEnvironmentRow
  | .branchAdoption _ | .created _ => [env]
  | _ => []

/-- What the cleanup leaves of the recorded environments, which runs before a creation
only. -/
def roomMade (resolver : IsolationResolver Location) (outside : ResolveOutside)
    (rows : List IsolationEnvironmentRow) : ResolutionMethod → List IsolationEnvironmentRow
  | .created _ => if resolver.cleanup.isSome then outside.cleanRows rows else rows
  | _ => rows

/-- A worktree that is handed out is there and belongs to the repository of the codebase. It
is the first that there is, in the order of the stages, and the stale environments before
it are marked unless the store refuses, and no others. -/
theorem resolve_handed {resolver : IsolationResolver Location} {outside : ResolveOutside}
    {request : ResolveRequest} {start final : ResolverState Location}
    {env : IsolationEnvironmentRow} {cwd : Path} {method : ResolutionMethod}
    (ran : (resolve resolver outside request).run start = .ok (.resolved env cwd method) final)
    (searched : method ≠ .existing) :
    ∃ codebase repoPath stale, request.codebase = some codebase ∧
      getCanonicalRepoPath resolver.provider outside.canonical codebase.defaultCwd start.world =
        .ok repoPath ∧
      final.world.hasEntry (resolver.provider.tree.locate cwd) = true ∧
      NamesRepository resolver.provider.tree final.world cwd repoPath ∧
      Handed resolver outside request.hints codebase repoPath start env method stale final ∧
      final.rows = roomMade resolver outside
        (start.rows.map (withDestroyed (markedIds stale))) method ++ newRows env method := by
  rw [resolve] at ran
  split at ran
  next envId given =>
    rw [otherwise] at ran
    rcases bind_eq_ok.mp ran with ⟨answer, between, checking, rest⟩
    cases answer with
    | none => cases rest
    | some found =>
        cases rest
        exact absurd (checkExisting_method checking) searched
  next =>
    split at ran
    · cases ran
    next codebase registered =>
      rcases canonicalPathOr_eq_resolved ran with ⟨repoPath, canonical, ran⟩
      rcases resolveFor_handed ran with ⟨-, names, stale, handed⟩
      refine ⟨codebase, repoPath, stale, registered, canonical, names.present, names, handed, ?_⟩
      cases handed with
      | @reused passed later candidate stale rows order before recorded =>
          have member : candidate ∈ candidates outside request.hints := by
            rw [order]
            simp
          rw [← before.rows_eq]
          rcases method_of_mem_candidates member with own | ⟨issueNumber, linked⟩
          · rw [own]
            exact (List.append_nil rows).symm
          · rw [linked]
            exact (List.append_nil rows).symm
      | adopted before hinted found =>
          rw [← before.rows_eq]
          rfl
      | created before unadoptable =>
          rw [← before.rows_eq]
          rfl

end IsolationResolver

open IsolationResolver IsolationStore WorktreeProvider

namespace ResolveCascade

def codebase : CodebaseSummary where
  id := "app".toList
  name := "acme/app".toList
  defaultCwd := "/srv/app".toList

def request : ResolveRequest where
  codebase := some codebase
  hints := some { workflowType := some .issue, workflowId := some "7".toList }
  platformType := "cli".toList

def lostRow : IsolationEnvironmentRow where
  codebaseId := "app".toList
  workflowType := .issue
  workflowId := "7".toList
  workingPath := "/gone".toList
  branchName := "archon/issue-7".toList
  id := "env-0".toList

def start : ResolverState Path where
  world := BranchIdentity.world
  rows := [lostRow]

def outside (update : Option IsolationError) : ResolveOutside where
  canonical := UnforcedDestroy.outside
  workflow := { update }
  adopting := UnforcedDestroy.outside
  creating := UnforcedDestroy.outside

def handsOut (test : IsolationEnvironmentRow → ResolutionMethod → ResolverState Path → Bool) :
    Outcome IsolationError (ResolverState Path) IsolationResolution → Bool
  | .ok (.resolved env _ method) final => test env method final
  | _ => false

theorem resolved_of_handsOut (handed : handsOut test outcome = true) :
    ∃ env cwd method final, outcome = .ok (.resolved env cwd method) final ∧
      test env method final = true := by
  unfold handsOut at handed
  split at handed
  · exact ⟨_, _, _, _, rfl, handed⟩
  · cases handed

end ResolveCascade

theorem resolve_handed_issue :
    ∃ env cwd final,
      (resolve BranchIdentity.resolver (ResolveCascade.outside none) ResolveCascade.request).run
        ResolveCascade.start = .ok (.resolved env cwd (.created none)) final ∧
      NamesRepository UnforcedDestroy.pathTree final.world cwd "/srv/app".toList ∧
      final.rows = [{ ResolveCascade.lostRow with status := .destroyed }, env] := by
  have ends : ResolveCascade.handsOut (fun env method final =>
      decide (method = .created none ∧
        final.rows = [{ ResolveCascade.lostRow with status := .destroyed }, env]))
      ((resolve BranchIdentity.resolver (ResolveCascade.outside none)
        ResolveCascade.request).run ResolveCascade.start) = true := by decide
  rcases ResolveCascade.resolved_of_handsOut ends with ⟨env, cwd, method, final, ran, passed⟩
  rcases of_decide_eq_true passed with ⟨rfl, rows⟩
  rcases resolve_handed ran (by decide) with
    ⟨codebase, repoPath, stale, registered, canonical, -, names, -, -⟩
  cases registered
  cases canonical
  exact ⟨env, cwd, final, ran, names, rows⟩

theorem resolve_refused_mark :
    ¬∀ (resolver : IsolationResolver Path) (outside : ResolveOutside) (request : ResolveRequest)
      (start final : ResolverState Path) (env : IsolationEnvironmentRow) (cwd : Path)
      (method : ResolutionMethod) (codebase : CodebaseSummary) (lost : IsolationEnvironmentRow),
      (resolve resolver outside request).run start = .ok (.resolved env cwd method) final →
      method ≠ .existing → request.existingEnvId = none → request.codebase = some codebase →
      workflowIdOf request.hints ≠ [] →
      start.rows.find? (activeFor codebase.id (workflowTypeOf request.hints)
        (workflowIdOf request.hints)) = some lost →
      start.world.hasEntry (resolver.provider.tree.locate lost.workingPath) = false →
      ∀ row ∈ final.rows, row.id = lost.id → row.status = .destroyed := by
  intro always
  have ends : ResolveCascade.handsOut (fun _ method final =>
      decide (method = .created none ∧ ResolveCascade.lostRow ∈ final.rows))
      ((resolve BranchIdentity.resolver
        (ResolveCascade.outside (some (.other "database is locked".toList)))
        ResolveCascade.request).run ResolveCascade.start) = true := by decide
  rcases ResolveCascade.resolved_of_handsOut ends with ⟨env, cwd, method, final, ran, passed⟩
  rcases of_decide_eq_true passed with ⟨rfl, member⟩
  have marked := always _ _ _ _ _ _ _ _ ResolveCascade.codebase ResolveCascade.lostRow ran
    (by decide) rfl rfl (by decide) (by decide) (by decide) _ member rfl
  cases marked

end HarnessAgent
