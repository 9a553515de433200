import HarnessAgent.Isolation.GitListings

/-! # The list of worktrees

`git worktree list --porcelain` prints one record after the other, each a few lines and
an empty one. The code keeps the path of the record that it is in, and takes the text
`refs/heads/` out of a branch wherever it stands.
-/

namespace HarnessAgent

namespace GitListing

open LexicalPath StatefulRun WorkspaceSync

/-! ## What git prints -/

inductive Checkout
  | bare
  | branch (commit : List Char) (name : BranchName)
  | detached (commit : List Char)
  | broken (commit : List Char)

def Checkout.lines : Checkout → List (List Char)
  | .bare => ["bare".toList]
  | .branch commit name => ["HEAD ".toList ++ commit, "branch refs/heads/".toList ++ name]
  | .detached commit => ["HEAD ".toList ++ commit, "detached".toList]
  | .broken commit => ["HEAD ".toList ++ commit]

def Checkout.branchName : Checkout → Option BranchName
  | .bare => none
  | .branch _ name => some name
  | .detached _ => none
  | .broken _ => none

structure WorktreeRecord where
  path : Path
  checkout : Checkout
  /-- The reason of a lock. -/
  locked : Option (List Char) := none
  /-- Why the worktree can be pruned. -/
  prunable : Option (List Char) := none

namespace WorktreeRecord

def lockLines (record : WorktreeRecord) : List (List Char) :=
  match record.locked with
  | none => []
  | some [] => ["locked".toList]
  | some (first :: rest) => ["locked ".toList ++ first :: rest]

def pruneLines (record : WorktreeRecord) : List (List Char) :=
  match record.prunable with
  | none => []
  | some reason => ["prunable ".toList ++ reason]

def lines (record : WorktreeRecord) : List (List Char) :=
  ("worktree ".toList ++ record.path) :: record.checkout.lines ++ record.lockLines ++
    record.pruneLines ++ [[]]

/-- Nothing that is printed on one line has a line feed. -/
structure Single (record : WorktreeRecord) : Prop where
  path : '\n' ∉ record.path
  checkout : ∀ line ∈ record.checkout.lines, '\n' ∉ line
  locked : ∀ reason ∈ record.locked, '\n' ∉ reason
  prunable : ∀ reason ∈ record.prunable, '\n' ∉ reason

def info (record : WorktreeRecord) : Option WorktreeInfo :=
  record.checkout.branchName.map fun name => ⟨record.path, name⟩

end WorktreeRecord

def porcelain (records : List WorktreeRecord) : List Char :=
  Text.unlines (records.flatMap WorktreeRecord.lines)

/-! ## What the code reads -/

structure WorktreeScan where
  currentPath : Path
  worktrees : List WorktreeInfo

def WorktreeScan.readLine (scan : WorktreeScan) (line : List Char) : WorktreeScan :=
  match Text.afterLiteral "worktree ".toList line with
  | some rest => { scan with currentPath := rest }
  | none =>
      match Text.afterLiteral "branch ".toList line with
      | none => scan
      | some rest =>
          let branch := Text.replaceLoop "refs/heads/".toList [] 0 rest
          -- an empty path or branch does not make a worktree
          if scan.currentPath = [] ∨ branch = [] then scan
          else { scan with worktrees := scan.worktrees ++ [⟨scan.currentPath, branch⟩] }

def readWorktrees (stdout : List Char) : List WorktreeInfo :=
  ((stdout.splitOn '\n').foldl WorktreeScan.readLine ⟨[], []⟩).worktrees

def listWorktrees (answers : GitAnswers) (repoPath : Path) :
    StatefulRun GitError GitTrace (List WorktreeInfo) := do
  match ← attempt (runGit answers repoPath
      ["worktree".toList, "list".toList, "--porcelain".toList]) with
  | .ok stdout => pure (readWorktrees stdout)
  | .error message =>
      if Text.occurs "No such file or directory".toList message then pure []
      else if Text.occurs "not a git repository".toList message then pure []
      else fail (.process ("Failed to list worktrees for ".toList ++ repoPath ++ ": ".toList ++
        message))

/-! ## Reading one record -/

def WorktreeRecord.readInfo (record : WorktreeRecord) : Option WorktreeInfo :=
  match record.checkout.branchName with
  | none => none
  | some name =>
      if record.path = [] ∨ listedName name = [] then none
      else some ⟨record.path, listedName name⟩

namespace WorktreeScan

variable (scan : WorktreeScan)

theorem readLine_path (path : Path) :
    scan.readLine ("worktree ".toList ++ path) = { scan with currentPath := path } := rfl

theorem readLine_other (noPath : Text.afterLiteral "worktree ".toList line = none)
    (noBranch : Text.afterLiteral "branch ".toList line = none) : scan.readLine line = scan := by
  rw [readLine, noPath]
  dsimp only
  rw [noBranch]

theorem readLine_branch (name : BranchName) :
    scan.readLine ("branch refs/heads/".toList ++ name) =
      if scan.currentPath = [] ∨ listedName name = [] then scan
      else { scan with worktrees := scan.worktrees ++ [⟨scan.currentPath, listedName name⟩] } := rfl

theorem foldl_others {lines : List (List Char)}
    (others : ∀ line ∈ lines, Text.afterLiteral "worktree ".toList line = none ∧
      Text.afterLiteral "branch ".toList line = none) (scan : WorktreeScan) :
    lines.foldl readLine scan = scan := by
  induction lines with
  | nil => rfl
  | cons line rest induction =>
      have first := others line List.mem_cons_self
      rw [List.foldl_cons, readLine_other scan first.1 first.2]
      exact induction fun other member => others other (List.mem_cons_of_mem _ member)

end WorktreeScan

namespace WorktreeRecord

theorem others_after (record : WorktreeRecord) :
    ∀ line ∈ record.lockLines ++ record.pruneLines ++ [[]],
      Text.afterLiteral "worktree ".toList line = none ∧
        Text.afterLiteral "branch ".toList line = none := by
  intro line member
  rcases List.mem_append.mp member with reasons | last
  · rcases List.mem_append.mp reasons with lock | prune
    · rw [lockLines] at lock
      split at lock
      · cases lock
      · rw [List.mem_singleton.mp lock]
        exact ⟨rfl, rfl⟩
      · rw [List.mem_singleton.mp lock]
        exact ⟨rfl, rfl⟩
    · rw [pruneLines] at prune
      split at prune
      · cases prune
      · rw [List.mem_singleton.mp prune]
        exact ⟨rfl, rfl⟩
  · rw [List.mem_singleton.mp last]
    exact ⟨rfl, rfl⟩

theorem foldl_checkout_of_none {checkout : Checkout} (noBranch : checkout.branchName = none)
    (scan : WorktreeScan) : checkout.lines.foldl WorktreeScan.readLine scan = scan := by
  apply WorktreeScan.foldl_others
  intro line member
  cases checkout with
  | bare =>
      rw [List.mem_singleton.mp member]
      exact ⟨rfl, rfl⟩
  | branch commit name => cases noBranch
  | detached commit =>
      rcases List.mem_pair.mp member with same | same
      · rw [same]
        exact ⟨rfl, rfl⟩
      · rw [same]
        exact ⟨rfl, rfl⟩
  | broken commit =>
      rw [List.mem_singleton.mp member]
      exact ⟨rfl, rfl⟩

theorem foldl_checkout_branch (commit : List Char) (name : BranchName) (scan : WorktreeScan) :
    (Checkout.branch commit name).lines.foldl WorktreeScan.readLine scan =
      if scan.currentPath = [] ∨ listedName name = [] then scan
      else { scan with worktrees := scan.worktrees ++ [⟨scan.currentPath, listedName name⟩] } := by
  have head : scan.readLine ("HEAD ".toList ++ commit) = scan := scan.readLine_other rfl rfl
  rw [Checkout.lines, List.foldl_cons, List.foldl_cons, List.foldl_nil, head,
    WorktreeScan.readLine_branch]

/-- A record sets the current path, and adds at most its own worktree. -/
theorem foldl_lines (record : WorktreeRecord) (scan : WorktreeScan) :
    record.lines.foldl WorktreeScan.readLine scan =
      ⟨record.path, scan.worktrees ++ record.readInfo.toList⟩ := by
  have split : record.lines = ("worktree ".toList ++ record.path) ::
      (record.checkout.lines ++ (record.lockLines ++ record.pruneLines ++ [[]])) := by
    simp only [lines, List.cons_append, List.append_assoc]
  rw [split, List.foldl_cons, List.foldl_append, WorktreeScan.foldl_others record.others_after,
    WorktreeScan.readLine_path, readInfo]
  cases held : record.checkout with
  | bare => rw [foldl_checkout_of_none rfl, Checkout.branchName, Option.toList, List.append_nil]
  | detached commit =>
      rw [foldl_checkout_of_none rfl, Checkout.branchName, Option.toList, List.append_nil]
  | broken commit =>
      rw [foldl_checkout_of_none rfl, Checkout.branchName, Option.toList, List.append_nil]
  | branch commit name =>
      rw [foldl_checkout_branch, Checkout.branchName]
      dsimp only
      split
      · rw [Option.toList, List.append_nil]
      · rfl

theorem single_lines {record : WorktreeRecord} (single : record.Single) :
    ∀ line ∈ record.lines, '\n' ∉ line := by
  intro line member
  simp only [lines, lockLines, pruneLines, List.cons_append, List.mem_cons, List.mem_append,
    List.not_mem_nil, or_false] at member
  rcases member with path | ((checkout | lock) | prune) | last
  · rw [path]
    simpa using single.path
  · exact single.checkout line checkout
  · split at lock
    · cases lock
    · rw [List.mem_singleton.mp lock]
      decide
    · next first rest present =>
        have plain := single.locked _ present
        rw [List.mem_singleton.mp lock]
        simpa using plain
  · split at prune
    · cases prune
    · next reason present =>
        have plain := single.prunable _ present
        rw [List.mem_singleton.mp prune]
        simpa using plain
  · rw [last]
    exact List.not_mem_nil

end WorktreeRecord

/-! ## Reading the list -/

theorem foldl_records (records : List WorktreeRecord) (scan : WorktreeScan) :
    ((records.flatMap WorktreeRecord.lines).foldl WorktreeScan.readLine scan).worktrees =
      scan.worktrees ++ records.filterMap WorktreeRecord.readInfo := by
  induction records generalizing scan with
  | nil => exact (List.append_nil _).symm
  | cons record rest induction =>
      rw [List.flatMap_cons, List.foldl_append, record.foldl_lines, induction]
      cases read : record.readInfo with
      | none => simp [read]
      | some info => simp [read]

theorem readWorktrees_porcelain {records : List WorktreeRecord}
    (single : ∀ record ∈ records, record.Single) :
    readWorktrees (porcelain records) = records.filterMap WorktreeRecord.readInfo := by
  have whole : ∀ line ∈ records.flatMap WorktreeRecord.lines, '\n' ∉ line := by
    intro line member
    rcases List.mem_flatMap.mp member with ⟨record, among, inside⟩
    exact WorktreeRecord.single_lines (single record among) line inside
  rw [readWorktrees, porcelain, Text.splitOn_unlines whole, List.foldl_append, List.foldl_cons,
    List.foldl_nil, WorktreeScan.readLine_other _ rfl rfl, foldl_records]
  rfl

/-! ## Records that are read as they are -/

/-- Exactly the records that have a branch are returned, in their order. -/
def ReadsRecords (records : List WorktreeRecord) : Prop :=
  ∀ answers repoPath,
    answers [(repoPath, ["worktree".toList, "list".toList, "--porcelain".toList])] =
      .ok (porcelain records) →
    ∃ trace, (listWorktrees answers repoPath).run [] =
      .ok (records.filterMap WorktreeRecord.info) trace

theorem listWorktrees_run
    (answer : answers [(repoPath, ["worktree".toList, "list".toList, "--porcelain".toList])] =
      .ok stdout) :
    (listWorktrees answers repoPath).run [] = .ok (readWorktrees stdout)
      [(repoPath, ["worktree".toList, "list".toList, "--porcelain".toList])] := by
  rw [listWorktrees, bind_of_ok (attempt_runGit answers repoPath _ []), List.nil_append, answer,
    run_pure]

theorem listedName_eq (name : BranchName) :
    listedName name = Text.replaceLoop "refs/heads/".toList [] 0 name := rfl

/-- A function that leaves more elements out agrees with another one on a list as soon as
the results do. -/
theorem eq_of_filterMap_eq {α β : Type} {first second : α → Option β}
    (fewer : ∀ element, second element = none → first element = none) {elements : List α}
    (same : elements.filterMap first = elements.filterMap second) :
    ∀ element ∈ elements, first element = second element := by
  have shorter : ∀ elements : List α,
      (elements.filterMap first).length ≤ (elements.filterMap second).length := by
    intro elements
    induction elements with
    | nil => exact le_refl _
    | cons element rest induction =>
        cases other : second element with
        | none =>
            rw [List.filterMap_cons_none other, List.filterMap_cons_none (fewer element other)]
            exact induction
        | some value =>
            rw [List.filterMap_cons_some other]
            cases one : first element with
            | none =>
                rw [List.filterMap_cons_none one]
                exact Nat.le_succ_of_le induction
            | some value =>
                rw [List.filterMap_cons_some one]
                exact Nat.succ_le_succ induction
  induction elements with
  | nil =>
      intro element member
      cases member
  | cons head rest induction =>
      have parts : first head = second head ∧ rest.filterMap first = rest.filterMap second := by
        cases other : second head with
        | none =>
            have one := fewer head other
            rw [List.filterMap_cons_none other, List.filterMap_cons_none one] at same
            exact ⟨one, same⟩
        | some value =>
            cases one : first head with
            | none =>
                rw [List.filterMap_cons_some other, List.filterMap_cons_none one] at same
                have size := congrArg List.length same
                have limit := shorter rest
                rw [List.length_cons] at size
                omega
            | some found =>
                rw [List.filterMap_cons_some other, List.filterMap_cons_some one] at same
                rw [(List.cons.inj same).1]
                exact ⟨rfl, (List.cons.inj same).2⟩
      intro element member
      rcases List.mem_cons.mp member with rfl | later
      · exact parts.1
      · exact induction parts.2 element later

theorem WorktreeRecord.readInfo_eq_info_iff {record : WorktreeRecord} :
    record.readInfo = record.info ↔
      ∀ name, record.checkout.branchName = some name →
        record.path ≠ [] ∧ name ≠ [] ∧ ¬ "refs/heads/".toList <:+: name := by
  rw [readInfo, info]
  cases record.checkout.branchName with
  | none => simp
  | some name =>
      have unchanged : listedName name = name ↔ ¬ "refs/heads/".toList <:+: name := by
        rw [listedName_eq]
        exact Text.replaceLoop_nil_eq_self_iff (by decide)
      simp only [Option.map_some, Option.some.injEq, forall_eq']
      rw [← unchanged]
      constructor
      · intro same
        split at same
        · cases same
        · next shown =>
            have parts := not_or.mp shown
            have name := (WorktreeInfo.mk.inj (Option.some.inj same)).2
            exact ⟨parts.1, name ▸ parts.2, name⟩
      · rintro ⟨path, shown, name⟩
        rw [name, if_neg (not_or.mpr ⟨path, shown⟩)]

/-- A list of records is read as it is exactly when no branch in it has `refs/heads/` in
its own name (and no such worktree has the empty path). -/
theorem readsRecords_iff {records : List WorktreeRecord}
    (single : ∀ record ∈ records, record.Single)
    (legal : ∀ record ∈ records, ∀ name, record.checkout.branchName = some name → Legal name) :
    ReadsRecords records ↔
      ∀ record ∈ records, ∀ name, record.checkout.branchName = some name →
        record.path ≠ [] ∧ ¬ "refs/heads/".toList <:+: name := by
  have reads : ReadsRecords records ↔
      records.filterMap WorktreeRecord.readInfo = records.filterMap WorktreeRecord.info := by
    constructor
    · intro exactly
      rcases exactly (fun _ => .ok (porcelain records)) [] rfl with ⟨trace, ran⟩
      rw [listWorktrees_run rfl, readWorktrees_porcelain single] at ran
      exact (Outcome.ok.inj ran).1
    · intro same answers repoPath answer
      rw [listWorktrees_run answer, readWorktrees_porcelain single, same]
      exact ⟨_, rfl⟩
  have fewer : ∀ record : WorktreeRecord, record.info = none → record.readInfo = none := by
    intro record none
    rw [WorktreeRecord.readInfo, Option.map_eq_none_iff.mp none]
  rw [reads]
  constructor
  · intro same record member name branch
    have kept := WorktreeRecord.readInfo_eq_info_iff.mp
      (eq_of_filterMap_eq fewer same record member) name branch
    exact ⟨kept.1, kept.2.2⟩
  · intro plain
    apply List.filterMap_congr
    intro record member
    apply WorktreeRecord.readInfo_eq_info_iff.mpr
    intro name branch
    have parts := plain record member name branch
    exact ⟨parts.1, (legal record member name branch).shown, parts.2⟩

def mixedRecords : List WorktreeRecord :=
  [{ path := "/repo".toList, checkout := .bare },
    { path := "/wt/fix".toList, checkout := .branch "0a".toList "fix".toList,
      locked := some "busy".toList },
    { path := "/wt/old".toList, checkout := .detached "0b".toList,
      prunable := some "gone".toList }]

theorem readsRecords_mixed : ReadsRecords mixedRecords := by
  apply (readsRecords_iff _ _).mpr
  · intro record member name branch
    rcases List.mem_cons.mp member with rfl | member
    · cases branch
    · rcases List.mem_pair.mp member with rfl | rfl
      · cases branch
        exact ⟨by decide, by decide⟩
      · cases branch
  · intro record member
    rcases List.mem_cons.mp member with rfl | member
    · exact ⟨by decide, by decide, by decide, by decide⟩
    · rcases List.mem_pair.mp member with rfl | rfl
      · exact ⟨by decide, by decide, by decide, by decide⟩
      · exact ⟨by decide, by decide, by decide, by decide⟩
  · intro record member name branch
    rcases List.mem_cons.mp member with rfl | member
    · cases branch
    · rcases List.mem_pair.mp member with rfl | rfl
      · cases branch
        exact legal_fix
      · cases branch

theorem legal_refsHeads : Legal "refs/heads/fix".toList :=
  ⟨by decide, Text.forall_of_all (by decide), by decide, by decide, by decide, by decide, by decide,
    by decide, by decide⟩

def refsHeadsRecords : List WorktreeRecord :=
  [{ path := "/wt".toList, checkout := .branch "0a".toList "refs/heads/fix".toList }]

theorem not_readsRecords_refsHeads :
    ¬ (∀ records : List WorktreeRecord, (∀ record ∈ records, record.Single) →
      (∀ record ∈ records, ∀ name, record.checkout.branchName = some name → Legal name) →
      ReadsRecords records) ∧
    readWorktrees (porcelain refsHeadsRecords) = [⟨"/wt".toList, "fix".toList⟩] := by
  have read : readWorktrees (porcelain refsHeadsRecords) = [⟨"/wt".toList, "fix".toList⟩] := by
    decide
  refine ⟨?_, read⟩
  intro always
  have reads : ReadsRecords refsHeadsRecords := by
    apply always
    · intro record member
      rw [List.mem_singleton.mp member]
      exact ⟨by decide, by decide, by decide, by decide⟩
    · intro record member name branch
      rw [List.mem_singleton.mp member] at branch
      cases branch
      exact legal_refsHeads
  rcases reads (fun _ => .ok (porcelain refsHeadsRecords)) [] rfl with ⟨trace, ran⟩
  rw [listWorktrees_run rfl, read] at ran
  exact absurd (Outcome.ok.inj ran).1 (by decide)

end GitListing

end HarnessAgent
