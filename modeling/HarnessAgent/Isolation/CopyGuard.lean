import HarnessAgent.Foundation.LexicalPath
import HarnessAgent.Foundation.Text

/-! # Files copied into a worktree

Before an entry of `copyFiles` is copied, it is joined to the root of the repository and
to that of the worktree, and both paths are normalized without the file system. A path
counts as within its root when its components begin with those of the root.
-/

namespace HarnessAgent

namespace WorktreeCopy

open LexicalPath

structure CopyFileEntry where
  source : Path
  destination : Path
  deriving DecidableEq, Repr

def parseCopyFileEntry (entry : List Char) : Except (List Char) CopyFileEntry :=
  let trimmed := Text.trim entry
  if trimmed = [] then .error "Copy entry cannot be empty".toList
  else .ok ⟨trimmed, trimmed⟩

/-! ## The guard -/

/-- An entry without its leading separators, of either kind. -/
def relativeEntry (filePath : Path) : Path :=
  filePath.dropWhile fun character => character == '/' || character == '\\'

def nodeJoin (root filePath : Path) : Path :=
  join root (relativeEntry filePath)

def pushComponent (out : List Component) (component : Component) : List Component :=
  match component with
  | .parentDir =>
      match out with
      | .normal _ :: outer => outer
      | .rootDir :: _ => out
      | _ => component :: out
  | .curDir => out
  | .rootDir => component :: out
  | .normal _ => component :: out

def normalizePath (path : Path) : List Component :=
  ((components path).foldl pushComponent []).reverse

def isPathWithinRoot (root filePath : Path) : Bool :=
  (normalizePath root).isPrefixOf (normalizePath (nodeJoin root filePath))

/-! ## Copying one entry -/

inductive IoError
  | notFound
  | other
  deriving DecidableEq, Repr

structure Disk where
  /-- Whether there is a directory. -/
  metadata : Path → Except IoError Bool
  /-- All directories above a path are made. -/
  createParent : Path → Except IoError Unit
  copyDirRecursive : Path → Path → Except IoError Unit
  copy : Path → Path → Except IoError Unit

/-- Nothing is there to be copied. -/
def Disk.bare : Disk where
  metadata := fun _ => .error .notFound
  createParent := fun _ => .ok ()
  copyDirRecursive := fun _ _ => .ok ()
  copy := fun _ _ => .ok ()

inductive Touch
  | metadata (source : Path)
  | createParent (destination : Path)
  | copy (source destination : Path)
  deriving DecidableEq, Repr

structure CopyReport where
  copied : Bool
  touched : List Touch

def copyWorktreeFile (disk : Disk) (sourceRoot destRoot : Path) (entry : CopyFileEntry) :
    CopyReport :=
  if !isPathWithinRoot sourceRoot entry.source then ⟨false, []⟩
  else if !isPathWithinRoot destRoot entry.destination then ⟨false, []⟩
  else
    let sourcePath := nodeJoin sourceRoot entry.source
    let destPath := nodeJoin destRoot entry.destination
    match disk.metadata sourcePath with
    | .error _ => ⟨false, [.metadata sourcePath]⟩
    | .ok isDir =>
        match disk.createParent destPath with
        | .error _ => ⟨false, [.metadata sourcePath, .createParent destPath]⟩
        | .ok () =>
            let result :=
              if isDir then disk.copyDirRecursive sourcePath destPath
              else disk.copy sourcePath destPath
            -- every error is logged, and the entry counts as skipped
            ⟨result.isOk,
              [.metadata sourcePath, .createParent destPath, .copy sourcePath destPath]⟩

/-- The entries that were copied, in their order; entries that cannot be parsed are passed
over. -/
def copyWorktreeFiles (disk : Disk) (canonicalRepoPath worktreePath : Path) :
    List (List Char) → List CopyFileEntry
  | [] => []
  | fileConfig :: rest =>
      match parseCopyFileEntry fileConfig with
      | .error _ => copyWorktreeFiles disk canonicalRepoPath worktreePath rest
      | .ok entry =>
          if (copyWorktreeFile disk canonicalRepoPath worktreePath entry).copied then
            entry :: copyWorktreeFiles disk canonicalRepoPath worktreePath rest
          else copyWorktreeFiles disk canonicalRepoPath worktreePath rest

theorem mem_copyWorktreeFiles (member : file ∈ files) (parsed : parseCopyFileEntry file = .ok entry)
    (copied : (copyWorktreeFile disk canonicalRepoPath worktreePath entry).copied = true) :
    entry ∈ copyWorktreeFiles disk canonicalRepoPath worktreePath files := by
  induction files with
  | nil => cases member
  | cons first rest induction =>
      rw [copyWorktreeFiles]
      rcases List.mem_cons.mp member with rfl | later
      · rw [parsed]
        dsimp only
        rw [if_pos copied]
        exact List.mem_cons_self
      · split
        · exact induction later
        · split
          · exact List.mem_cons_of_mem _ (induction later)
          · exact induction later

def lacksSource (disk : Disk) (sourceRoot destRoot : Path) (entry : CopyFileEntry) : Bool :=
  isPathWithinRoot sourceRoot entry.source && isPathWithinRoot destRoot entry.destination &&
    disk.metadata (nodeJoin sourceRoot entry.source) = .error .notFound

def isCopied (disk : Disk) (sourceRoot destRoot : Path) (copied : List CopyFileEntry)
    (fileConfig : List Char) : Bool :=
  match parseCopyFileEntry fileConfig with
  | .error _ => true
  | .ok entry => copied.contains entry || lacksSource disk sourceRoot destRoot entry

/-! ## Normalized components -/

def stack (place : Place) : List Component :=
  place.trail.map Component.normal ++ List.replicate place.ups .parentDir ++
    if place.absolute then [.rootDir] else []

def Rooted (place : Place) : Prop :=
  place.absolute = true → place.ups = 0

variable {place : Place}

theorem rooted_enter (rooted : Rooted place) (segment : Segment) :
    Rooted (place.enter segment) := by
  intro absolute
  rw [Place.absolute_enter] at absolute
  rw [Place.ups_enter_of_absolute absolute]
  exact rooted absolute

theorem stack_enter (rooted : Rooted place) {segment : Segment} (notDot : segment ≠ ['.']) :
    stack (place.enter segment) = pushComponent (stack place) (Component.ofSegment segment) := by
  rcases place with ⟨absolute, ups, trail⟩
  rw [Place.enter, if_neg notDot, Component.ofSegment]
  split
  · cases trail with
    | cons name outer => rfl
    | nil =>
        cases absolute with
        | true =>
            have bottom : ups = 0 := rooted rfl
            subst bottom
            rfl
        | false =>
            cases ups with
            | zero => rfl
            | succ ups => simp [stack, pushComponent, List.replicate_succ]
  · rfl

theorem foldl_pushComponent (rooted : Rooted place) (names : List Segment) :
    ((names.filter (· ≠ ['.'])).map Component.ofSegment).foldl pushComponent (stack place) =
      stack (place.enterAll names) := by
  induction names generalizing place with
  | nil => rfl
  | cons name rest induction =>
      rw [Place.enterAll, List.foldl_cons, ← Place.enterAll]
      by_cases dot : name = ['.']
      · have stays : place.enter name = place := by rw [Place.enter, if_pos dot]
        rw [List.filter_cons_of_neg (by simp [dot]), stays]
        exact induction rooted
      · rw [List.filter_cons_of_pos (by simp [dot]), List.map_cons, List.foldl_cons,
          ← stack_enter rooted dot]
        exact induction (rooted_enter rooted name)

theorem normalizePath_eq (path : Path) : normalizePath path = (stack (Place.resolve path)).reverse := by
  have start : (if isAbsolute path then [Component.rootDir]
      else if (segments path).head? = some ['.'] then [.curDir] else []).foldl pushComponent [] =
      stack { absolute := isAbsolute path } := by
    cases isAbsolute path with
    | true => rfl
    | false =>
        simp only [Bool.false_eq_true, if_false]
        split
        · rfl
        · rfl
  rw [normalizePath, components, List.foldl_append, start, foldl_pushComponent fun _ => rfl]
  rfl

/-! ## What the guard lets through -/

def Below (root target : Path) : Prop :=
  ∃ way : Place, way.absolute = false ∧ way.ups = 0 ∧
    Place.resolve target = (Place.resolve root).follow way

theorem below_iff_inside {root target : Path} :
    Below root target ↔ (Place.resolve target).Inside (Place.resolve root) := by
  constructor
  · rintro ⟨way, _, level, reached⟩
    rw [reached]
    exact Place.inside_follow_of_ups_eq_zero _ level
  · rintro ⟨between, absolute, ups, trail⟩
    refine ⟨⟨false, 0, between⟩, rfl, rfl, ?_⟩
    apply Place.eq_of_fields
    · exact absolute
    · simp [Place.follow, ups]
    · exact trail

def Dangling (root filePath : Path) : Prop :=
  isAbsolute root = false ∧ (Place.resolve root).trail = [] ∧
    (Place.resolve (relativeEntry filePath)).ups ≠ 0

instance (root filePath : Path) : Decidable (Dangling root filePath) :=
  inferInstanceAs (Decidable (_ ∧ _))

theorem isAbsolute_relativeEntry (filePath : Path) : isAbsolute (relativeEntry filePath) = false := by
  rw [relativeEntry, isAbsolute]
  cases kept : filePath.dropWhile fun character => character == '/' || character == '\\' with
  | nil => rfl
  | cons first rest =>
      have stops := List.head?_dropWhile_not (fun character => character == '/' || character == '\\')
        filePath
      rw [kept] at stops
      have other : ¬ first = '/' := by
        intro slash
        rw [slash] at stops
        cases stops
      simp [other]

theorem resolve_nodeJoin (root filePath : Path) :
    Place.resolve (nodeJoin root filePath) =
      (Place.resolve root).follow (Place.resolve (relativeEntry filePath)) := by
  have relative := isAbsolute_relativeEntry filePath
  cases root with
  | nil =>
      have alone : nodeJoin [] filePath = relativeEntry filePath := by
        rw [nodeJoin, join, relative]
        rfl
      have same := Place.absolute_resolve (relativeEntry filePath)
      rw [relative] at same
      rw [alone]
      rcases reached : Place.resolve (relativeEntry filePath) with ⟨absolute, ups, trail⟩
      rw [reached] at same
      cases same
      simp [Place.resolve, Place.enterAll, Place.follow, isAbsolute]
  | cons first rest => exact Place.resolve_join (List.cons_ne_nil first rest) relative

theorem map_normal_suffix {left right : List Segment} :
    left.map Component.normal <:+ right.map Component.normal ↔ left <:+ right :=
  List.suffix_map_iff_of_injective fun _ _ => Component.normal.inj

theorem suffix_append_right {α : Type} {left right common : List α} :
    left ++ common <:+ right ++ common ↔ left <:+ right := by
  constructor
  · rintro ⟨before, same⟩
    refine ⟨before, ?_⟩
    rw [← List.append_assoc] at same
    exact List.append_cancel_right same
  · rintro ⟨before, rfl⟩
    exact ⟨before, (List.append_assoc _ _ _).symm⟩

theorem inside_follow {way : Place} :
    (place.follow way).Inside place ↔
      (place.follow way).ups = place.ups ∧ place.trail <:+ (place.follow way).trail := by
  constructor
  · rintro ⟨between, _, ups, trail⟩
    exact ⟨ups, between, trail.symm⟩
  · rintro ⟨ups, between, trail⟩
    exact ⟨between, rfl, ups, trail.symm⟩

theorem stack_absolute (rooted : Rooted place) (absolute : place.absolute = true) :
    stack place = place.trail.map Component.normal ++ [.rootDir] := by
  rw [stack, rooted absolute, absolute, if_pos rfl, List.replicate_zero, List.append_nil]

theorem stack_relative {place : Place} (relative : place.absolute = false) :
    stack place = place.trail.map Component.normal ++ List.replicate place.ups .parentDir := by
  rw [stack, relative, if_neg Bool.false_ne_true, List.append_nil]

/-- The stack of a place that is reached from another one ends like that one's, if it lies
inside, or if the way leads up and there was nothing to go up from. -/
theorem stack_suffix_iff {way : Place} (rooted : Rooted place) :
    stack place <:+ stack (place.follow way) ↔
      (place.follow way).Inside place ∨
        (place.absolute = false ∧ place.trail = [] ∧ way.ups ≠ 0) := by
  rw [inside_follow]
  cases absolute : place.absolute with
  | true =>
      have ups : (place.follow way).ups = place.ups := by simp [Place.follow, absolute]
      have rootedFollow : Rooted (place.follow way) := by
        intro _
        rw [ups, rooted absolute]
      rw [stack_absolute rooted absolute, stack_absolute rootedFollow absolute,
        suffix_append_right, map_normal_suffix]
      simp [ups]
  | false =>
      have ups : (place.follow way).ups = way.ups - place.trail.length + place.ups := by
        simp only [Place.follow, absolute, Bool.false_eq_true, if_false]
        omega
      rw [stack_relative absolute, @stack_relative (place.follow way) absolute, ups,
        ← List.replicate_append_replicate, ← List.append_assoc, suffix_append_right]
      cases above : way.ups - place.trail.length with
      | zero =>
          rw [List.replicate_zero, List.append_nil, map_normal_suffix]
          constructor
          · intro ends
            exact .inl ⟨Nat.zero_add _, ends⟩
          · rintro (inside | ⟨_, empty, leads⟩)
            · exact inside.2
            · rw [empty, List.length_nil] at above
              exact absurd above leads
      | succ more =>
          rw [List.replicate_succ', ← List.append_assoc, List.suffix_concat_iff]
          constructor
          · rintro (empty | ⟨before, ends, _⟩)
            · right
              refine ⟨rfl, List.map_eq_nil_iff.mp empty, ?_⟩
              omega
            · have member : Component.parentDir ∈ place.trail.map Component.normal := by
                rw [ends]
                exact List.mem_append_right _ (List.mem_singleton_self _)
              rcases List.mem_map.mp member with ⟨name, _, impossible⟩
              cases impossible
          · rintro (inside | ⟨_, empty, _⟩)
            · have level := inside.1
              omega
            · left
              rw [empty, List.map_nil]

theorem rooted_resolve (path : Path) : Rooted (Place.resolve path) := by
  intro absolute
  rw [Place.absolute_resolve] at absolute
  exact Place.ups_resolve_of_absolute absolute

/-- The guard lets through what stays below the root, and what leaves a root that is
relative and leads nowhere down. -/
theorem isPathWithinRoot_iff {root filePath : Path} :
    isPathWithinRoot root filePath = true ↔
      Below root (nodeJoin root filePath) ∨ Dangling root filePath := by
  rw [isPathWithinRoot, List.isPrefixOf_iff_prefix, normalizePath_eq, normalizePath_eq,
    List.reverse_prefix, below_iff_inside, Dangling, ← Place.absolute_resolve root,
    resolve_nodeJoin]
  exact stack_suffix_iff (rooted_resolve root)

theorem not_below_of_dangling (dangling : Dangling root filePath) :
    ¬ Below root (nodeJoin root filePath) := by
  rcases dangling with ⟨relative, empty, leads⟩
  rw [below_iff_inside, resolve_nodeJoin, inside_follow]
  intro inside
  have ups := inside.1
  simp only [Place.follow, Place.absolute_resolve, relative, empty, Bool.false_eq_true, if_false,
    List.length_nil] at ups
  omega

/-! ## Copying within both roots -/

def Touch.Within (sourceRoot destRoot : Path) : Touch → Prop
  | .metadata source => Below sourceRoot source
  | .createParent destination => Below destRoot destination
  | .copy source destination => Below sourceRoot source ∧ Below destRoot destination

/-- An entry is let through exactly if it stays below both roots, and then nothing outside
of them is touched. -/
def Guarded (sourceRoot destRoot : Path) (entry : CopyFileEntry) : Prop :=
  ∀ disk : Disk,
    ((copyWorktreeFile disk sourceRoot destRoot entry).touched ≠ [] ↔
      Below sourceRoot (nodeJoin sourceRoot entry.source) ∧
        Below destRoot (nodeJoin destRoot entry.destination)) ∧
      ∀ touch ∈ (copyWorktreeFile disk sourceRoot destRoot entry).touched,
        touch.Within sourceRoot destRoot

theorem touched_ne_nil_iff {disk : Disk} {sourceRoot destRoot : Path} {entry : CopyFileEntry} :
    (copyWorktreeFile disk sourceRoot destRoot entry).touched ≠ [] ↔
      isPathWithinRoot sourceRoot entry.source = true ∧
        isPathWithinRoot destRoot entry.destination = true := by
  rw [copyWorktreeFile]
  cases isPathWithinRoot sourceRoot entry.source with
  | false => simp
  | true =>
      cases isPathWithinRoot destRoot entry.destination with
      | false => simp
      | true =>
          simp only [Bool.not_true, Bool.false_eq_true, if_false, and_self, iff_true]
          split
          · exact List.cons_ne_nil _ _
          · split
            · exact List.cons_ne_nil _ _
            · exact List.cons_ne_nil _ _

/-- Whatever is touched belongs to the two joined paths. -/
theorem within_of_mem_touched {disk : Disk}
    (source : Below sourceRoot (nodeJoin sourceRoot entry.source))
    (destination : Below destRoot (nodeJoin destRoot entry.destination)) :
    ∀ touch ∈ (copyWorktreeFile disk sourceRoot destRoot entry).touched,
      touch.Within sourceRoot destRoot := by
  intro touch member
  have shape : touch = .metadata (nodeJoin sourceRoot entry.source) ∨
      touch = .createParent (nodeJoin destRoot entry.destination) ∨
      touch = .copy (nodeJoin sourceRoot entry.source) (nodeJoin destRoot entry.destination) := by
    rw [copyWorktreeFile] at member
    split at member
    · cases member
    · split at member
      · cases member
      · dsimp only at member
        split at member
        · exact .inl (List.mem_singleton.mp member)
        · split at member
          · rcases List.mem_pair.mp member with same | same
            · exact .inl same
            · exact .inr (.inl same)
          · simpa using member
  rcases shape with rfl | rfl | rfl
  · exact source
  · exact destination
  · exact ⟨source, destination⟩

def Refused (root filePath : Path) : Prop :=
  ¬ Below root (nodeJoin root filePath) ∧ ¬ Dangling root filePath

/-- The guards do what they are for exactly where an entry that leads up from a root
without names is refused for the other root. -/
theorem guarded_iff (sourceRoot destRoot : Path) (entry : CopyFileEntry) :
    Guarded sourceRoot destRoot entry ↔
      (Dangling sourceRoot entry.source → Refused destRoot entry.destination) ∧
        (Dangling destRoot entry.destination → Refused sourceRoot entry.source) := by
  simp only [Guarded, touched_ne_nil_iff, isPathWithinRoot_iff, Refused]
  constructor
  · intro guarded
    have exactly := (guarded
      ⟨fun _ => .error .other, fun _ => .ok (), fun _ _ => .ok (), fun _ _ => .ok ()⟩).1
    constructor
    · intro dangling
      rw [← not_or]
      intro accepted
      exact not_below_of_dangling dangling (exactly.mp ⟨.inr dangling, accepted⟩).1
    · intro dangling
      rw [← not_or]
      intro accepted
      exact not_below_of_dangling dangling (exactly.mp ⟨accepted, .inr dangling⟩).2
  · rintro ⟨fromSource, fromDest⟩ disk
    have exactly : ((Below sourceRoot (nodeJoin sourceRoot entry.source) ∨
        Dangling sourceRoot entry.source) ∧
        (Below destRoot (nodeJoin destRoot entry.destination) ∨
          Dangling destRoot entry.destination)) ↔
        Below sourceRoot (nodeJoin sourceRoot entry.source) ∧
          Below destRoot (nodeJoin destRoot entry.destination) := by
      constructor
      · rintro ⟨source | dangling, destination⟩
        · rcases destination with destination | dangling
          · exact ⟨source, destination⟩
          · exact absurd source (fromDest dangling).1
        · have refused := not_or.mpr (fromSource dangling)
          exact absurd destination refused
      · rintro ⟨source, destination⟩
        exact ⟨.inl source, .inl destination⟩
    refine ⟨exactly, ?_⟩
    intro touch member
    have nonempty : (copyWorktreeFile disk sourceRoot destRoot entry).touched ≠ [] :=
      List.ne_nil_of_mem member
    rw [touched_ne_nil_iff, isPathWithinRoot_iff, isPathWithinRoot_iff, exactly] at nonempty
    exact within_of_mem_touched nonempty.1 nonempty.2 touch member

def outwardEntry : CopyFileEntry := ⟨"../wt/.env".toList, "../wt/.env".toList⟩

def readyDisk : Disk where
  metadata _ := .ok false
  createParent _ := .ok ()
  copyDirRecursive _ _ := .ok ()
  copy _ _ := .ok ()

theorem not_guarded_outward :
    ¬ (∀ sourceRoot destRoot entry, Guarded sourceRoot destRoot entry) ∧
      (copyWorktreeFile readyDisk ".".toList "/wt".toList outwardEntry).copied = true ∧
      ¬ Below ".".toList (nodeJoin ".".toList outwardEntry.source) := by
  have dangling : Dangling ".".toList outwardEntry.source := by decide
  have outside := not_below_of_dangling dangling
  refine ⟨?_, by decide, outside⟩
  intro always
  have exactly := (always ".".toList "/wt".toList outwardEntry readyDisk).1
  exact outside (exactly.mp (by decide)).1

end WorktreeCopy

end HarnessAgent
