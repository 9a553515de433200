import HarnessAgent.Foundation.EventStream
import HarnessAgent.Isolation.WorkspaceSync
import Mathlib.Data.List.MinMax
import Mathlib.Data.List.Nodup

/-! # What git prints

The lists of branches and worktrees as git prints them, and what the code reads off
them.
-/

namespace HarnessAgent

namespace GitListing

open LexicalPath StatefulRun WorkspaceSync

/-! ## Branch names -/

structure Legal (name : BranchName) : Prop where
  shown : name ≠ []
  plain : ∀ character ∈ name,
    0x20 < character.toNat ∧ character.toNat ≠ 0x7F ∧ character ∉ "~^:?*[\\".toList
  components : ∀ component ∈ name.splitOn '/',
    component ≠ [] ∧ component.head? ≠ some '.' ∧ ¬ ".lock".toList <:+ component
  notDots : ¬ "..".toList <:+: name
  notBrace : ¬ ['@', Char.ofNat 0x7B] <:+: name
  notAt : name ≠ ['@']
  end_ne : name.getLast? ≠ some '.'
  start_ne : name.head? ≠ some '-'
  notHead : name ≠ "HEAD".toList

namespace Legal

variable {name : BranchName}

theorem not_mem {character : Char} (legal : Legal name)
    (banned : character.toNat ≤ 0x20 ∨ character ∈ "~^:?*[\\".toList) : character ∉ name := by
  intro member
  have plain := legal.plain character member
  rcases banned with low | special
  · omega
  · exact plain.2.2 special

theorem no_newline (legal : Legal name) : '\n' ∉ name := legal.not_mem (.inl (by decide))

theorem no_space (legal : Legal name) : ' ' ∉ name := legal.not_mem (.inl (by decide))

theorem no_star (legal : Legal name) : '*' ∉ name := legal.not_mem (.inr (by decide))

end Legal

/-! ## Merged branches -/

/-- How `git branch` marks a branch: as checked out here, or in a linked worktree. -/
inductive Marker
  | unmarked
  | current
  | linked
deriving DecidableEq

def Marker.text : Marker → List Char
  | .unmarked => "  ".toList
  | .current => "* ".toList
  | .linked => "+ ".toList

structure ListedBranch where
  marker : Marker
  name : BranchName

def ListedBranch.line (listed : ListedBranch) : List Char :=
  listed.marker.text ++ listed.name

structure MergedListing where
  detachedHead : Option (List Char)
  branches : List ListedBranch

namespace MergedListing

def headLines (listing : MergedListing) : List (List Char) :=
  match listing.detachedHead with
  | none => []
  | some description => ["* (".toList ++ description ++ [')']]

def lines (listing : MergedListing) : List (List Char) :=
  listing.headLines ++ listing.branches.map ListedBranch.line

def text (listing : MergedListing) : List Char :=
  Text.unlines listing.lines

def names (listing : MergedListing) : List BranchName :=
  listing.branches.map ListedBranch.name

structure WellFormed (listing : MergedListing) : Prop where
  legal : ∀ listed ∈ listing.branches, Legal listed.name
  nodup : listing.names.Nodup
  description : ∀ description ∈ listing.detachedHead, ' ' ∈ description ∧ '\n' ∉ description

end MergedListing

def readName (line : List Char) : List Char :=
  trimStartMatches "* ".toList line.length (Text.trim line)

def readNames (stdout : List Char) : List (List Char) :=
  (stdout.splitOn '\n').map readName

section

variable (answers : GitAnswers)

def isBranchMerged (repoPath : Path) (branchName mainBranch : BranchName) :
    StatefulRun GitError GitTrace Bool := do
  match ← attempt (runGit answers repoPath
      ["branch".toList, "--merged".toList, mainBranch]) with
  | .ok stdout => pure ((readNames stdout).contains branchName)
  | .error message =>
      if mentions message "not a git repository" || mentions message "unknown revision" ||
          mentions message "no such file" then
        pure false
      else
        fail (.process ("Failed to check if ".toList ++ branchName ++ " is merged into ".toList ++
          mainBranch ++ ": ".toList ++ message))

end

/-! ### Reading a line -/

theorem trimEnd_le (text : List Char) : (Text.trimEnd text).length ≤ text.length :=
  (List.rdropWhile_prefix Text.isWhitespace text).length_le

variable {text : List Char}

theorem trimEnd_eq_of_length
    (same : (Text.trimEnd text).length = text.length) : Text.trimEnd text = text :=
  (List.rdropWhile_prefix Text.isWhitespace text).eq_of_length same

theorem trimStartMatches_of_not_prefix (absent : ¬ pattern <+: text) (fuel : Nat) :
    trimStartMatches pattern fuel text = text := by
  cases fuel with
  | zero => rfl
  | succ fuel =>
      rw [trimStartMatches, if_neg fun starts => absent (List.isPrefixOf_iff_prefix.mp starts)]

theorem trimStartMatches_append (pattern text : List Char) (fuel : Nat) :
    trimStartMatches pattern (fuel + 1) (pattern ++ text) = trimStartMatches pattern fuel text := by
  rw [trimStartMatches, if_pos (List.isPrefixOf_iff_prefix.mpr (List.prefix_append _ _)),
    List.drop_left]

theorem trimStartMatches_suffix (pattern : List Char) (fuel : Nat) (text : List Char) :
    trimStartMatches pattern fuel text <:+ text := by
  induction fuel generalizing text with
  | zero => exact List.suffix_refl text
  | succ fuel induction =>
      rw [trimStartMatches]
      split
      · exact (induction _).trans (List.drop_suffix _ _)
      · exact List.suffix_refl text

theorem trimStart_le (text : List Char) : (Text.trimStart text).length ≤ text.length :=
  (List.dropWhile_suffix Text.isWhitespace).length_le

theorem trim_eq_of_length (same : (Text.trim text).length = text.length) :
    Text.trimStart text = text ∧ Text.trimEnd text = text := by
  have below := trimEnd_le (Text.trimStart text)
  have start : Text.trimStart text = text := by
    apply (List.dropWhile_suffix Text.isWhitespace).eq_of_length
    have upper := trimStart_le text
    rw [Text.trim] at same
    rw [Text.trimStart] at *
    omega
  rw [Text.trim, start] at same
  exact ⟨start, trimEnd_eq_of_length same⟩

theorem trimEnd_of_blank (blank : Text.Blank text) : Text.trimEnd text = [] := by
  have dropped := @Text.trimEnd_append_of_blank [] text blank
  exact dropped

theorem not_blank_of_trimEnd (kept : Text.trimEnd text = text)
    (shown : text ≠ []) : ¬ Text.Blank text := by
  intro blank
  rw [trimEnd_of_blank blank] at kept
  exact shown kept.symm

variable {marker : Char}

theorem trim_marked (shown : Text.isWhitespace marker = false) (name : List Char) :
    Text.trim (marker :: ' ' :: name) = Text.trimEnd ([marker, ' '] ++ name) :=
  congrArg Text.trimEnd (List.dropWhile_cons_of_neg (by simp [shown]))

variable {name : List Char}

theorem trim_marked_of_blank (shown : Text.isWhitespace marker = false)
    (blank : Text.Blank name) : Text.trim (marker :: ' ' :: name) = [marker] := by
  rw [trim_marked shown, Text.trimEnd_append_of_blank blank]
  have alone : Text.trimEnd ([marker] ++ [' ']) = Text.trimEnd ([] ++ [marker]) :=
    Text.trimEnd_append_of_blank (by simp [Text.Blank, Text.isWhitespace])
  exact alone.trans (List.rdropWhile_concat_neg _ _ _ (by simp [shown]))

theorem trim_marked_of_visible (shown : Text.isWhitespace marker = false)
    (visible : ¬ Text.Blank name) :
    Text.trim (marker :: ' ' :: name) = marker :: ' ' :: Text.trimEnd name := by
  rw [trim_marked shown]
  exact Text.trimEnd_append_of_not_blank visible

theorem readName_unmarked (noStar : '*' ∉ name) :
    readName ("  ".toList ++ name) = Text.trim name := by
  have trimmed : Text.trim ("  ".toList ++ name) = Text.trim name :=
    Text.trim_of_blank_append (by simp [Text.Blank, Text.isWhitespace])
  rw [readName, trimmed]
  apply trimStartMatches_of_not_prefix
  intro starts
  have inside : '*' ∈ Text.trim name := starts.subset (by decide)
  have within : Text.trim name ⊆ name :=
    List.Subset.trans (List.rdropWhile_prefix _ _).subset (List.dropWhile_suffix _).subset
  exact noStar (within inside)

theorem readName_current (noStar : '*' ∉ name)
    (visible : ¬ Text.Blank name) : readName ("* ".toList ++ name) = Text.trimEnd name := by
  have trimmed : Text.trim ("* ".toList ++ name) = "* ".toList ++ Text.trimEnd name :=
    trim_marked_of_visible (by decide) visible
  rw [readName, trimmed]
  change trimStartMatches "* ".toList (name.length + 1 + 1) _ = _
  rw [trimStartMatches_append]
  apply trimStartMatches_of_not_prefix
  intro starts
  have inside : '*' ∈ Text.trimEnd name := starts.subset (by decide)
  exact noStar ((List.rdropWhile_prefix _ _).subset inside)

/-- A line without white space at its ends that does not begin with the marker of the
current branch is read as it is. -/
theorem readName_of_trim (trimmed : Text.trim line = text)
    (unmarked : ¬ "* ".toList <+: text) : readName line = text := by
  rw [readName, trimmed]
  exact trimStartMatches_of_not_prefix unmarked _

theorem readName_marked_of_blank (shown : Text.isWhitespace marker = false)
    (blank : Text.Blank name) : readName (marker :: ' ' :: name) = [marker] := by
  apply readName_of_trim (trim_marked_of_blank shown blank)
  intro starts
  have size : 2 ≤ 1 := starts.length_le
  omega

theorem readName_linked (visible : ¬ Text.Blank name) :
    readName ("+ ".toList ++ name) = "+ ".toList ++ Text.trimEnd name := by
  apply readName_of_trim (trim_marked_of_visible (by decide) visible)
  intro starts
  exact absurd (List.cons_prefix_cons.mp starts).1 (by decide)

theorem readName_detached {description : List Char} :
    readName ("* (".toList ++ description ++ [')']) = '(' :: description ++ [')'] := by
  have visible : Text.trim ("* (".toList ++ description ++ [')']) =
      "* (".toList ++ description ++ [')'] := by
    rw [List.append_assoc]
    exact @Text.trim_eq_self '*' ')' (" (".toList ++ description) (by decide) (by decide)
  have size : ("* (".toList ++ description ++ [')']).length = description.length + 3 + 1 := by
    simp only [List.length_append, List.length_singleton]
    change 3 + _ + 1 = _
    omega
  rw [readName, visible, size]
  change trimStartMatches "* ".toList (description.length + 3 + 1)
    ("* ".toList ++ ('(' :: description ++ [')'])) = _
  rw [trimStartMatches_append]
  apply trimStartMatches_of_not_prefix
  intro starts
  exact absurd (List.cons_prefix_cons.mp starts).1 (by decide)

/-! ### Branches that are read as they are -/

/-- A branch that is not checked out in a linked worktree, and whose name has no white
space at its end, nor, without a marker, at its beginning. -/
structure ListedBranch.Plain (listed : ListedBranch) : Prop where
  unlinked : listed.marker ≠ .linked
  trailing : Text.trimEnd listed.name = listed.name
  leading : listed.marker = .unmarked → Text.trimStart listed.name = listed.name

theorem readName_of_plain {listed : ListedBranch} (legal : Legal listed.name)
    (plain : listed.Plain) : readName listed.line = listed.name := by
  rcases listed with ⟨marker, name⟩
  cases marker with
  | unmarked =>
      refine (readName_unmarked legal.no_star).trans ?_
      rw [Text.trim, plain.leading rfl, plain.trailing]
  | current =>
      have visible := not_blank_of_trimEnd plain.trailing legal.shown
      exact (readName_current legal.no_star visible).trans plain.trailing
  | linked => exact absurd rfl plain.unlinked

def weight (name : List Char) : Nat :=
  if name.all Text.isWhitespace then name.length + 1 else name.length

theorem weight_of_not_blank (visible : ¬ Text.Blank name) :
    weight name = name.length := by
  rw [weight, if_neg]
  intro all
  exact visible (List.all_eq_true.mp all)

theorem length_le_weight (name : List Char) : name.length ≤ weight name := by
  rw [weight]
  split
  · exact Nat.le_succ _
  · exact le_refl _

theorem weight_of_blank (blank : Text.Blank name) :
    weight name = name.length + 1 :=
  if_pos (List.all_eq_true.mpr blank)

variable {branch : BranchName}

theorem readName_line {listed : ListedBranch} (legal : Legal listed.name)
    (legalBranch : Legal branch) (read : readName listed.line = branch) :
    (listed.Plain ∧ branch = listed.name) ∨ weight branch < weight listed.name := by
  rcases listed with ⟨marker, name⟩
  have shorter : branch.length < name.length → ¬ Text.Blank branch →
      weight branch < weight name := by
    intro less visible
    rw [weight_of_not_blank visible]
    exact Nat.lt_of_lt_of_le less (length_le_weight name)
  cases marker with
  | unmarked =>
      have trimmed : Text.trim name = branch := (readName_unmarked legal.no_star).symm.trans read
      have visible : ¬ Text.Blank branch := by
        apply not_blank_of_trimEnd _ legalBranch.shown
        rw [← trimmed, Text.trim]
        exact List.rdropWhile_idempotent _ _
      rcases Nat.lt_or_ge branch.length name.length with less | same
      · exact .inr (shorter less visible)
      · left
        have size : (Text.trim name).length = name.length := by
          have upper := (trimEnd_le (Text.trimStart name)).trans (trimStart_le name)
          rw [trimmed]
          rw [← Text.trim, trimmed] at upper
          omega
        have kept := trim_eq_of_length size
        have whole : branch = name := by rw [← trimmed, Text.trim, kept.1, kept.2]
        exact ⟨⟨Marker.noConfusion, kept.2, fun _ => kept.1⟩, whole⟩
  | current =>
      by_cases blank : Text.Blank name
      · have star : readName ("* ".toList ++ name) = ['*'] := readName_marked_of_blank (by decide) blank
        have same : ['*'] = branch := star.symm.trans read
        rw [← same] at legalBranch
        exact absurd (.head _) legalBranch.no_star
      · have trimmed : Text.trimEnd name = branch :=
          (readName_current legal.no_star blank).symm.trans read
        have visible : ¬ Text.Blank branch := by
          apply not_blank_of_trimEnd _ legalBranch.shown
          rw [← trimmed]
          exact List.rdropWhile_idempotent _ _
        rcases Nat.lt_or_ge branch.length name.length with less | same
        · exact .inr (shorter less visible)
        · left
          have kept : Text.trimEnd name = name := by
            apply trimEnd_eq_of_length
            have upper := trimEnd_le name
            rw [trimmed] at upper ⊢
            omega
          exact ⟨⟨Marker.noConfusion, kept, Marker.noConfusion⟩, trimmed.symm.trans kept⟩
  | linked =>
      by_cases blank : Text.Blank name
      · have plus : readName ("+ ".toList ++ name) = ['+'] := readName_marked_of_blank (by decide) blank
        have same : ['+'] = branch := plus.symm.trans read
        have size : 0 < name.length := List.length_pos_iff.mpr legal.shown
        right
        rw [← same, weight_of_blank blank]
        change 1 < name.length + 1
        omega
      · have spaced : "+ ".toList ++ Text.trimEnd name = branch := (readName_linked blank).symm.trans read
        rw [← spaced] at legalBranch
        exact absurd (.tail _ (.head _)) legalBranch.no_space

theorem not_of_ascending {α : Type} {elements : List α} {property : α → Prop} (size : α → Nat)
    (ascends : ∀ element ∈ elements, property element →
      ∃ heavier ∈ elements, property heavier ∧ size element < size heavier) :
    ∀ element ∈ elements, ¬ property element := by
  classical
  intro element member holds
  have kept : element ∈ elements.filter property :=
    List.mem_filter.mpr ⟨member, decide_eq_true holds⟩
  cases heaviest : (elements.filter property).argmax size with
  | none =>
      rw [List.argmax_eq_none.mp heaviest] at kept
      cases kept
  | some top =>
      have found := List.mem_filter.mp (List.argmax_mem heaviest)
      rcases ascends top found.1 (of_decide_eq_true found.2) with
        ⟨heavier, memberHeavier, holdsHeavier, more⟩
      have limit := List.le_of_mem_argmax
        (List.mem_filter.mpr ⟨memberHeavier, decide_eq_true holdsHeavier⟩) heaviest
      exact absurd limit (Nat.not_le.mpr more)

namespace MergedListing

variable {listing : MergedListing}

theorem not_mem_lines (formed : listing.WellFormed) : ∀ line ∈ listing.lines, '\n' ∉ line := by
  intro line member
  rcases List.mem_append.mp member with head | branch
  · rw [headLines] at head
    split at head
    · cases head
    · next description present =>
        have single := (formed.description description present).2
        rw [List.mem_singleton.mp head]
        simp [single]
  · rcases List.mem_map.mp branch with ⟨listed, among, rfl⟩
    have single := (formed.legal listed among).no_newline
    rcases listed with ⟨marker, name⟩
    cases marker <;> simpa [ListedBranch.line, Marker.text] using single

theorem mem_readNames (formed : listing.WellFormed) (legal : Legal branch) :
    branch ∈ readNames listing.text ↔ ∃ listed ∈ listing.branches, readName listed.line = branch := by
  rw [readNames, text, Text.splitOn_unlines (not_mem_lines formed), lines]
  constructor
  · intro member
    rcases List.mem_map.mp member with ⟨line, among, read⟩
    rcases List.mem_append.mp among with inLines | last
    · rcases List.mem_append.mp inLines with head | branches
      · rw [headLines] at head
        split at head
        · cases head
        · next description present =>
            have spaced := (formed.description description present).1
            rw [List.mem_singleton.mp head, readName_detached] at read
            have inside : ' ' ∈ branch := by
              rw [← read]
              simp [spaced]
            exact absurd inside legal.no_space
      · rcases List.mem_map.mp branches with ⟨listed, memberListed, rfl⟩
        exact ⟨listed, memberListed, read⟩
    · rw [List.mem_singleton.mp last] at read
      exact absurd read.symm legal.shown
  · rintro ⟨listed, member, read⟩
    apply List.mem_map.mpr
    exact ⟨listed.line, List.mem_append_left _ (List.mem_append_right _ (List.mem_map_of_mem member)),
      read⟩

/-- Whatever branch is asked for, the answer is whether git lists it. -/
def ReportsMerged (listing : MergedListing) : Prop :=
  ∀ answers repoPath branch mainBranch, Legal branch →
    answers [(repoPath, ["branch".toList, "--merged".toList, mainBranch])] = .ok listing.text →
    ∃ merged trace, (isBranchMerged answers repoPath branch mainBranch).run [] = .ok merged trace ∧
      (merged = true ↔ branch ∈ listing.names)

end MergedListing

theorem isBranchMerged_run {answers : GitAnswers}
    (answer : answers [(repoPath, ["branch".toList, "--merged".toList, mainBranch])] = .ok stdout) :
    (isBranchMerged answers repoPath branch mainBranch).run [] =
      .ok ((readNames stdout).contains branch)
        [(repoPath, ["branch".toList, "--merged".toList, mainBranch])] := by
  rw [isBranchMerged, bind_of_ok (attempt_runGit answers repoPath _ []), List.nil_append, answer,
    run_pure]

namespace MergedListing

variable {listing : MergedListing}

theorem reportsMerged_iff_mem :
    listing.ReportsMerged ↔
      ∀ branch, Legal branch → (branch ∈ readNames listing.text ↔ branch ∈ listing.names) := by
  constructor
  · intro reports branch legal
    rcases reports (fun _ => .ok listing.text) [] branch [] legal rfl with
      ⟨merged, trace, ran, exactly⟩
    rw [isBranchMerged_run rfl] at ran
    cases ran
    rw [← exactly, List.contains_iff_mem]
  · intro exactly answers repoPath branch mainBranch legal answer
    refine ⟨_, _, isBranchMerged_run answer, ?_⟩
    rw [List.contains_iff_mem, exactly branch legal]

theorem reportsMerged_iff (formed : listing.WellFormed) :
    listing.ReportsMerged ↔ ∀ listed ∈ listing.branches, listed.Plain := by
  rw [reportsMerged_iff_mem]
  constructor
  · intro exactly
    have ascends : ∀ listed ∈ listing.branches, ¬ listed.Plain →
        ∃ heavier ∈ listing.branches, ¬ heavier.Plain ∧
          weight listed.name < weight heavier.name := by
      intro listed member worn
      have legal := formed.legal listed member
      have named : listed.name ∈ readNames listing.text :=
        (exactly listed.name legal).mpr (List.mem_map_of_mem member)
      rcases (mem_readNames formed legal).mp named with ⟨other, memberOther, read⟩
      rcases readName_line (formed.legal other memberOther) legal read with ⟨plain, same⟩ | lighter
      · have one : listed = other := List.inj_on_of_nodup_map formed.nodup member memberOther same
        exact absurd (one ▸ plain) worn
      · refine ⟨other, memberOther, ?_, lighter⟩
        intro plain
        rw [readName_of_plain (formed.legal other memberOther) plain] at read
        rw [read] at lighter
        exact absurd lighter (Nat.lt_irrefl _)
    intro listed member
    by_contra worn
    exact not_of_ascending (fun listed => weight listed.name) ascends listed member worn
  · intro plain branch legal
    rw [mem_readNames formed legal, names, List.mem_map]
    constructor
    · rintro ⟨listed, member, read⟩
      refine ⟨listed, member, ?_⟩
      rw [← readName_of_plain (formed.legal listed member) (plain listed member), read]
    · rintro ⟨listed, member, same⟩
      refine ⟨listed, member, ?_⟩
      rw [readName_of_plain (formed.legal listed member) (plain listed member), same]

end MergedListing

/-! ## The default branch -/

def ReportsDefault (name : BranchName) : Prop :=
  ∀ answers repoPath,
    answers [(repoPath, ["symbolic-ref".toList, "refs/remotes/origin/HEAD".toList,
      "--short".toList])] = .ok ("origin/".toList ++ name ++ ['\n']) →
    ∃ trace, (getDefaultBranch answers repoPath).run [] = .ok name trace

theorem getDefaultBranch_run {answers : GitAnswers}
    (answer : answers [(repoPath, ["symbolic-ref".toList, "refs/remotes/origin/HEAD".toList,
      "--short".toList])] = .ok stdout) :
    (getDefaultBranch answers repoPath).run [] =
      (ofExcept (toGitBranchName
        (trimStartMatches "origin/".toList stdout.length (Text.trim stdout)))).run
        [(repoPath, ["symbolic-ref".toList, "refs/remotes/origin/HEAD".toList,
          "--short".toList])] := by
  rw [getDefaultBranch, bind_of_ok (attempt_runGit answers repoPath _ []), List.nil_append,
    answer]

theorem trim_origin (name : BranchName) :
    Text.trim ("origin/".toList ++ name ++ ['\n']) = "origin/".toList ++ Text.trimEnd name := by
  rw [Text.trim_append_of_blank (by simp [Text.Blank, Text.isWhitespace])]
  have start : Text.trimStart ("origin/".toList ++ name) = "origin/".toList ++ name :=
    List.dropWhile_cons_of_neg (by decide)
  rw [Text.trim, start]
  by_cases blank : Text.Blank name
  · rw [Text.trimEnd_append_of_blank blank, trimEnd_of_blank blank]
    rfl
  · exact Text.trimEnd_append_of_not_blank blank

theorem reportsDefault_iff (legal : Legal name) :
    ReportsDefault name ↔ ¬ "origin/".toList <+: name ∧ Text.trimEnd name = name := by
  have size : ("origin/".toList ++ name ++ ['\n']).length = name.length + 7 + 1 := by
    simp only [List.length_append, List.length_singleton]
    change 7 + _ + 1 = _
    omega
  have taken : trimStartMatches "origin/".toList ("origin/".toList ++ name ++ ['\n']).length
      (Text.trim ("origin/".toList ++ name ++ ['\n'])) =
        trimStartMatches "origin/".toList (name.length + 7) (Text.trimEnd name) := by
    rw [trim_origin, size, trimStartMatches_append]
  constructor
  · intro reports
    rcases reports (fun _ => .ok ("origin/".toList ++ name ++ ['\n'])) [] rfl with ⟨trace, ran⟩
    rw [getDefaultBranch_run rfl, taken, toGitBranchName] at ran
    split at ran
    · cases ran
    · have whole : trimStartMatches "origin/".toList (name.length + 7) (Text.trimEnd name) = name :=
        (Outcome.ok.inj ran).1
      have kept : Text.trimEnd name = name := by
        apply trimEnd_eq_of_length
        have upper := (trimStartMatches_suffix "origin/".toList (name.length + 7)
          (Text.trimEnd name)).length_le
        have lower := trimEnd_le name
        rw [whole] at upper
        omega
      refine ⟨?_, kept⟩
      rintro ⟨rest, rfl⟩
      rw [kept, show ("origin/".toList ++ rest).length + 7 =
        ("origin/".toList ++ rest).length + 6 + 1 from rfl, trimStartMatches_append] at whole
      have shorter := (trimStartMatches_suffix "origin/".toList
        (("origin/".toList ++ rest).length + 6) rest).length_le
      rw [whole, List.length_append] at shorter
      change 7 + _ ≤ _ at shorter
      omega
  · rintro ⟨absent, kept⟩ answers repoPath answer
    rw [getDefaultBranch_run answer, taken, kept, trimStartMatches_of_not_prefix absent,
      toGitBranchName, if_neg legal.shown]
    exact ⟨_, rfl⟩

/-! ## Both together -/

theorem legal_main : Legal "main".toList :=
  ⟨by decide, Text.forall_of_all (by decide), by decide, by decide, by decide, by decide, by decide,
    by decide, by decide⟩

theorem legal_fix : Legal "fix".toList :=
  ⟨by decide, Text.forall_of_all (by decide), by decide, by decide, by decide, by decide, by decide,
    by decide, by decide⟩

def mergedInto (marker : Marker) : MergedListing where
  detachedHead := none
  branches := [⟨.current, "main".toList⟩, ⟨marker, "fix".toList⟩]

theorem wellFormed_mergedInto (marker : Marker) : (mergedInto marker).WellFormed where
  legal := by
    intro listed member
    rcases List.mem_pair.mp member with rfl | rfl
    · exact legal_main
    · exact legal_fix
  nodup := by
    change ["main".toList, "fix".toList].Nodup
    decide
  description := by
    intro description member
    cases member

end GitListing

end HarnessAgent
