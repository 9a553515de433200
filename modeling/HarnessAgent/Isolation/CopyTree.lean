import HarnessAgent.Foundation.Volume

/-! # Copying a directory into a worktree

The recursive copy behind an entry of `copyFiles` that is a directory. What is there
already is kept, as by the copy that it mirrors: the source is laid over it.
-/

namespace HarnessAgent

namespace WorktreeCopy

open StatefulRun

inductive CopyError
  | io (failure : VolumeFailure)
  | outOfFuel
  deriving DecidableEq, Repr

section

variable {Name : Type} [DecidableEq Name]

abbrev ReadOrder (Name : Type) := Volume Name → List Name → List Name → List Name

def ReadOrder.Lawful (order : ReadOrder Name) : Prop :=
  ∀ volume place names, (order volume place names).Perm names

abbrev VolumeRun (Name : Type) (α : Type) := StatefulRun CopyError (Volume Name) α

def operation (change : Volume Name → Except VolumeFailure (Volume Name)) : VolumeRun Name Unit where
  run volume :=
    match change volume with
    | .ok after => .ok () after
    | .error failure => .error (.io failure) volume

def readDir (order : ReadOrder Name) (place : List Name) : VolumeRun Name (List Name) where
  run volume :=
    match volume.node place with
    | some .directory => .ok (order volume place (volume.children place)) volume
    | some (.file _) => .error (.io .notADirectory) volume
    | none => .error (.io (volume.missing place)) volume

def fileType (place : List Name) : VolumeRun Name VolumeNode where
  run volume :=
    match volume.node place with
    | some node => .ok node volume
    | none => .error (.io (volume.missing place)) volume

def copyEntry (recurse : List Name → List Name → VolumeRun Name Unit) (src dst : List Name)
    (name : Name) : VolumeRun Name Unit := do
  let type ← fileType (name :: src)
  if type = .directory then recurse (name :: src) (name :: dst)
  else operation fun volume => volume.copyFile (name :: src) (name :: dst)

/-- The entries of a directory one after the other, up to the first error. -/
def copyEntries (recurse : List Name → List Name → VolumeRun Name Unit) (src dst : List Name) :
    List Name → VolumeRun Name Unit
  | [] => pure ()
  | name :: rest => do
      copyEntry recurse src dst name
      copyEntries recurse src dst rest

def copyDirRecursive (order : ReadOrder Name) : Nat → List Name → List Name → VolumeRun Name Unit
  | 0, _, _ => fail .outOfFuel
  | fuel + 1, src, dst => do
      operation fun volume => volume.createDirAll dst
      let names ← readDir order src
      copyEntries (copyDirRecursive order fuel) src dst names

/-! ## One tree over another -/

def Clash (first second : Option VolumeNode) : Prop :=
  (first = some .directory ∧ ∃ bytes, second = some (.file bytes)) ∨
    (second = some .directory ∧ ∃ bytes, first = some (.file bytes))

/-- The way to the destination is free of files, and no directory of one tree meets a file
of the other. -/
structure Fits (volume : Volume Name) (src dst : List Name) : Prop where
  clear : ∀ outer, outer <:+ dst → ∀ bytes, volume.node outer ≠ some (.file bytes)
  agree : ∀ relative, ¬Clash (volume.node (relative ++ src)) (volume.node (relative ++ dst))

/-- The destination has what the source has, and what was there where the source has
nothing. Nothing else has changed. -/
structure LaidOver (volume : Volume Name) (src dst : List Name) (after : Volume Name) : Prop where
  inside : ∀ relative, after.node (relative ++ dst) =
    (volume.node (relative ++ src)).or (volume.node (relative ++ dst))
  around : ∀ outer, outer <:+ dst → after.node outer = some .directory
  outside : ∀ place, ¬dst <:+ place → ¬place <:+ dst → after.node place = volume.node place

/-- How a copy ends: the source is laid over the destination, or the two do not fit. -/
def Lays (volume : Volume Name) (src dst : List Name) :
    Outcome CopyError (Volume Name) Unit → Prop
  | .ok () after => Fits volume src dst ∧ LaidOver volume src dst after
  | .error (.io _) after => ¬Fits volume src dst ∧
      ∀ place, ¬dst <:+ place → ¬place <:+ dst → after.node place = volume.node place
  | .error .outOfFuel _ => False

/-- Neither of two places is the other or lies below it. -/
def Apart (src dst : List Name) : Prop :=
  ¬src <:+ dst ∧ ¬dst <:+ src

omit [DecidableEq Name] in
theorem Apart.cons {src dst : List Name} (apart : Apart src dst) (name : Name) :
    Apart (name :: src) (name :: dst) := by
  have further : ∀ {inner outer : List Name}, ¬inner <:+ outer →
      ¬name :: inner <:+ name :: outer := by
    intro inner outer elsewhere around
    rcases List.suffix_cons_iff.mp around with same | around
    · cases same
      exact elsewhere List.suffix_rfl
    · exact elsewhere ((List.suffix_cons _ _).trans around)
  exact ⟨further apart.1, further apart.2⟩

omit [DecidableEq Name] in
theorem Apart.not_suffix {src dst : List Name} (apart : Apart src dst) (relative : List Name) :
    ¬dst <:+ relative ++ src := by
  intro around
  rcases List.suffix_or_suffix_of_suffix around (List.suffix_append relative src) with inner | inner
  · exact apart.2 inner
  · exact apart.1 inner

/-! ## The entries of one directory -/

structure Progress (volume : Volume Name) (src dst done : List Name) (after : Volume Name) :
    Prop where
  copied : ∀ name ∈ done, ∀ relative, after.node (relative ++ name :: dst) =
    (volume.node (relative ++ name :: src)).or (volume.node (relative ++ name :: dst))
  same : ∀ place, (∀ name ∈ done, ¬name :: dst <:+ place) → after.node place = volume.node place

def EntryFits (volume : Volume Name) (src dst : List Name) (name : Name) : Prop :=
  ∀ relative, ¬Clash (volume.node (relative ++ name :: src)) (volume.node (relative ++ name :: dst))

/-- How copying some entries ends. -/
def Copies (volume : Volume Name) (src dst done names : List Name) :
    Outcome CopyError (Volume Name) Unit → Prop
  | .ok () after => (∀ name ∈ names, EntryFits volume src dst name) ∧
      Progress volume src dst (names ++ done) after
  | .error (.io _) after => (∃ name ∈ names, ¬EntryFits volume src dst name) ∧
      ∀ place, ¬dst <:+ place → ¬place <:+ dst → after.node place = volume.node place
  | .error .outOfFuel _ => False

variable {volume after : Volume Name} {src dst done : List Name}

omit [DecidableEq Name] in
theorem Progress.source (progress : Progress volume src dst done after) (apart : Apart src dst)
    (relative : List Name) : after.node (relative ++ src) = volume.node (relative ++ src) := by
  apply progress.same
  intro name _ around
  exact apart.not_suffix relative ((List.suffix_cons _ _).trans around)

omit [DecidableEq Name] in
/-- Below an entry that is still to come, everything is as it was. -/
theorem Progress.target
    (progress : Progress volume src dst done after) {name : Name} (fresh : name ∉ done)
    (relative : List Name) :
    after.node (relative ++ name :: dst) = volume.node (relative ++ name :: dst) := by
  apply progress.same
  intro other copied around
  have inner := List.suffix_append relative (name :: dst)
  have lengths : (other :: dst).length = (name :: dst).length := rfl
  have same := (List.suffix_of_suffix_length_le around inner (Nat.le_of_eq lengths)).eq_of_length lengths
  cases same
  exact fresh copied

omit [DecidableEq Name] in
theorem Progress.directory (progress : Progress volume src dst done after)
    (directory : volume.node dst = some .directory) {outer : List Name} (around : outer <:+ dst) :
    after.node outer = some .directory := by
  rw [progress.same]
  · exact Volume.directory_of_suffix directory around
  · intro name _ inner
    have bound := (inner.trans around).length_le
    rw [List.length_cons] at bound
    omega

omit [DecidableEq Name] in
theorem Progress.outside (progress : Progress volume src dst done after) {place : List Name}
    (elsewhere : ¬dst <:+ place) : after.node place = volume.node place := by
  apply progress.same
  intro name _ around
  exact elsewhere ((List.suffix_cons _ _).trans around)

omit [DecidableEq Name] in
theorem Progress.next {volume before after : Volume Name} {src dst done : List Name}
    (progress : Progress volume src dst done before) {name : Name} (fresh : name ∉ done)
    (copied : ∀ relative, after.node (relative ++ name :: dst) =
      (volume.node (relative ++ name :: src)).or (volume.node (relative ++ name :: dst)))
    (same : ∀ place, ¬name :: dst <:+ place → after.node place = before.node place) :
    Progress volume src dst ([name] ++ done) after where
  copied := by
    intro other member relative
    rcases List.mem_cons.mp member with rfl | earlier
    · exact copied relative
    · rw [same]
      · exact progress.copied other earlier relative
      · intro around
        have inner := List.suffix_append relative (other :: dst)
        have lengths : (name :: dst).length = (other :: dst).length := rfl
        have equal := (List.suffix_of_suffix_length_le around inner
          (Nat.le_of_eq lengths)).eq_of_length lengths
        cases equal
        exact fresh earlier
  same := by
    intro place elsewhere
    rcases List.forall_mem_cons.mp elsewhere with ⟨here, others⟩
    rw [same place here]
    exact progress.same place others

omit [DecidableEq Name] in
theorem Progress.congr {src dst done others : List Name}
    (progress : Progress volume src dst done after)
    (same : ∀ name, name ∈ done ↔ name ∈ others) : Progress volume src dst others after where
  copied := by
    intro name member
    exact progress.copied name ((same name).mpr member)
  same := by
    intro place elsewhere
    apply progress.same
    intro name member
    exact elsewhere name ((same name).mp member)

omit [DecidableEq Name] in
theorem not_clash_of_none {first : Option VolumeNode} : ¬Clash none first := by
  rintro (⟨directory, -⟩ | ⟨-, bytes, file⟩)
  · cases directory
  · cases file

section

variable {volume current : Volume Name} {src dst done : List Name} {name : Name}

theorem copies_of_lays (apart : Apart src dst) (directory : volume.node dst = some .directory)
    (progress : Progress volume src dst done current) (fresh : name ∉ done)
    (source : volume.node (name :: src) = some .directory)
    (lays : Lays current (name :: src) (name :: dst) outcome) :
    Copies volume src dst done [name] outcome := by
  have sources : ∀ relative, current.node (relative ++ name :: src) =
      volume.node (relative ++ name :: src) := by
    intro relative
    have same := progress.source apart (relative ++ [name])
    rwa [List.append_assoc] at same
  have around : ∀ {place}, place <:+ name :: dst → place = name :: dst ∨ place <:+ dst :=
    fun inner => List.suffix_cons_iff.mp inner
  cases outcome with
  | ok _ after =>
      rcases lays with ⟨fits, laid⟩
      constructor
      · intro other member
        cases List.mem_singleton.mp member
        intro relative
        rw [← sources, ← progress.target fresh]
        exact fits.agree relative
      · apply progress.next fresh
        · intro relative
          rw [laid.inside, sources, progress.target fresh]
        · intro place elsewhere
          by_cases outer : place <:+ name :: dst
          · rcases around outer with rfl | further
            · exact absurd List.suffix_rfl elsewhere
            · rw [laid.around place outer, progress.directory directory further]
          · exact laid.outside place elsewhere outer
  | error error after =>
      cases error with
      | outOfFuel => exact lays
      | io failure =>
          rcases lays with ⟨unfit, same⟩
          constructor
          · refine ⟨name, List.mem_singleton.mpr rfl, ?_⟩
            intro fits
            apply unfit
            constructor
            · intro outer inner bytes file
              rcases around inner with rfl | further
              · have target := progress.target fresh []
                rw [List.nil_append] at target
                rw [target] at file
                exact fits [] (.inl ⟨source, bytes, file⟩)
              · rw [progress.directory directory further] at file
                cases file
            · intro relative
              rw [sources, progress.target fresh]
              exact fits relative
          · intro place elsewhere outer
            rw [same, progress.outside elsewhere]
            · intro inner
              exact elsewhere ((List.suffix_cons _ _).trans inner)
            · intro inner
              rcases around inner with rfl | further
              · exact elsewhere (List.suffix_cons _ _)
              · exact outer further

theorem copies_of_file (apart : Apart src dst) (directory : volume.node dst = some .directory)
    (progress : Progress volume src dst done current) (fresh : name ∉ done)
    (source : volume.node (name :: src) = some (.file bytes)) :
    Copies volume src dst done [name]
      ((operation fun volume => volume.copyFile (name :: src) (name :: dst)).run current) := by
  have here := progress.source apart [name]
  have target := progress.target fresh []
  rw [List.nil_append] at target
  rw [List.singleton_append, source] at here
  have different : name :: src ≠ name :: dst := by
    intro same
    cases same
    exact apart.1 List.suffix_rfl
  rw [operation]
  dsimp only
  rw [Volume.copyFile, here]
  dsimp only
  rw [if_neg different]
  rcases Volume.write_cases current bytes (progress.directory directory List.suffix_rfl) with
    ⟨taken, failure, failed⟩ | ⟨free, after, written, nodes⟩
  · rw [failed]
    refine ⟨⟨name, List.mem_singleton.mpr rfl, ?_⟩, fun place elsewhere _ =>
      progress.outside elsewhere⟩
    intro fits
    rw [target] at taken
    exact fits [] (.inr ⟨taken, bytes, source⟩)
  · rw [written]
    constructor
    · intro other member
      cases List.mem_singleton.mp member
      intro relative
      cases relative with
      | nil =>
          rintro (⟨wrong, -⟩ | ⟨taken, -⟩)
          · rw [List.nil_append, source] at wrong
            cases wrong
          · rw [target] at free
            exact free taken
      | cons first relative =>
          rw [Volume.node_append_of_file source (List.cons_ne_nil first relative)]
          exact not_clash_of_none
    · apply progress.next fresh
      · intro relative
        rw [nodes]
        cases relative with
        | nil =>
            rw [List.nil_append, if_pos rfl, List.nil_append, source]
            rfl
        | cons first relative =>
            rw [if_neg, Volume.node_append_of_file source (List.cons_ne_nil first relative),
              progress.target fresh]
            · rfl
            · intro same
              have lengths := congrArg List.length same
              rw [List.length_append, List.length_cons, List.length_cons] at lengths
              omega
      · intro place elsewhere
        rw [nodes, if_neg]
        intro same
        rw [same] at elsewhere
        exact elsewhere List.suffix_rfl

omit [DecidableEq Name] in
theorem fileType_run {place : List Name} {node : VolumeNode}
    (found : current.node place = some node) :
    (fileType place).run current = .ok node current := by
  simp only [fileType, found]

theorem copyEntry_copies (apart : Apart src dst) (directory : volume.node dst = some .directory)
    (progress : Progress volume src dst done current) (fresh : name ∉ done)
    (present : (volume.node (name :: src)).isSome = true)
    (recursion : volume.node (name :: src) = some .directory →
      Lays current (name :: src) (name :: dst)
        ((recurse (name :: src) (name :: dst)).run current)) :
    Copies volume src dst done [name] ((copyEntry recurse src dst name).run current) := by
  have here := progress.source apart [name]
  rw [List.singleton_append] at here
  rcases Option.isSome_iff_exists.mp present with ⟨node, source⟩
  have ran := fileType_run (here.trans source)
  rw [copyEntry, bind_of_ok ran]
  cases node with
  | directory =>
      rw [if_pos rfl]
      exact copies_of_lays apart directory progress fresh source (recursion source)
  | file bytes =>
      rw [if_neg (by simp)]
      exact copies_of_file apart directory progress fresh source

end

theorem copyEntries_copies {volume : Volume Name} (apart : Apart src dst)
    (directory : volume.node dst = some .directory)
    (recursion : ∀ name current, volume.node (name :: src) = some .directory →
      (∀ relative, current.node (relative ++ src) = volume.node (relative ++ src)) →
      Lays current (name :: src) (name :: dst)
        ((recurse (name :: src) (name :: dst)).run current))
    (progress : Progress volume src dst done current)
    (present : ∀ name ∈ names, (volume.node (name :: src)).isSome = true)
    (distinct : (names ++ done).Nodup) :
    Copies volume src dst done names ((copyEntries recurse src dst names).run current) := by
  induction names generalizing done current with
  | nil =>
      constructor
      · intro name member
        cases member
      · exact progress
  | cons name rest induction =>
      rcases List.forall_mem_cons.mp present with ⟨here, later⟩
      rw [List.cons_append, List.nodup_cons] at distinct
      rcases distinct with ⟨unlisted, others⟩
      have fresh : name ∉ done := fun member => unlisted (List.mem_append_right _ member)
      have first := copyEntry_copies apart directory progress fresh here fun source =>
        recursion name current source (progress.source apart)
      rw [copyEntries]
      cases ran : (copyEntry recurse src dst name).run current with
      | error error after =>
          rw [ran] at first
          rw [bind_of_error ran]
          cases error with
          | outOfFuel => exact first
          | io failure =>
              rcases first with ⟨⟨other, member, unfit⟩, same⟩
              cases List.mem_singleton.mp member
              exact ⟨⟨name, List.mem_cons_self, unfit⟩, same⟩
      | ok _ after =>
          rw [ran] at first
          rw [bind_of_ok ran]
          rcases first with ⟨fits, further⟩
          have apartNames : (rest ++ ([name] ++ done)).Nodup := by
            have moved : (name :: (rest ++ done)).Perm (rest ++ ([name] ++ done)) :=
              List.perm_middle.symm
            exact moved.nodup (List.nodup_cons.mpr ⟨unlisted, others⟩)
          have onward := induction further later apartNames
          cases ending : (copyEntries recurse src dst rest).run after with
          | error error final =>
              rw [ending] at onward
              cases error with
              | outOfFuel => exact onward
              | io failure =>
                  rcases onward with ⟨⟨other, member, unfit⟩, same⟩
                  exact ⟨⟨other, List.mem_cons_of_mem _ member, unfit⟩, same⟩
          | ok _ final =>
              rw [ending] at onward
              rcases onward with ⟨others, complete⟩
              constructor
              · intro other member
                rcases List.mem_cons.mp member with rfl | member
                · exact fits other (List.mem_singleton.mpr rfl)
                · exact others other member
              · apply complete.congr
                intro other
                simp only [List.mem_append, List.mem_cons, List.not_mem_nil, or_false]
                rw [or_assoc]
                exact or_left_comm

/-! ## The whole tree -/

/-- Nothing in a tree lies deeper than a number of directories. -/
def Shallow (volume : Volume Name) (src : List Name) (depth : Nat) : Prop :=
  ∀ relative, (volume.node (relative ++ src)).isSome = true → relative.length < depth

omit [DecidableEq Name] in
theorem exists_shallow (volume : Volume Name) (src : List Name) :
    ∃ depth, Shallow volume src depth := by
  refine ⟨(volume.places.map List.length).max?.getD 0 + 1, ?_⟩
  intro relative present
  have listed : (relative ++ src).length ∈ volume.places.map List.length :=
    List.mem_map_of_mem (volume.complete _ present)
  have bound := @List.le_max?_getD_of_mem _ _ 0 listed
  rw [List.length_append] at bound
  omega

omit [DecidableEq Name] in
theorem Shallow.mono {volume : Volume Name} {src : List Name} {depth further : Nat}
    (shallow : Shallow volume src depth) (more : depth ≤ further) :
    Shallow volume src further :=
  fun relative present => Nat.lt_of_lt_of_le (shallow relative present) more

omit [DecidableEq Name] in
theorem Shallow.entry {volume current : Volume Name} {src : List Name} {depth : Nat}
    (shallow : Shallow volume src (depth + 1)) {name : Name}
    (same : ∀ relative, current.node (relative ++ src) = volume.node (relative ++ src)) :
    Shallow current (name :: src) depth := by
  intro relative present
  have source := same (relative ++ [name])
  rw [List.append_assoc, List.singleton_append] at source
  rw [source] at present
  have bound := shallow (relative ++ [name])
  rw [List.append_assoc, List.singleton_append, List.length_append, List.length_singleton] at bound
  have deep := bound present
  omega

/-- The destination has been made as a directory, and the entries of the source are known. -/
structure Prepared (volume made : Volume Name) (src dst names : List Name) : Prop where
  apart : Apart src dst
  source : volume.node src = some .directory
  clear : ∀ outer, outer <:+ dst → ∀ bytes, volume.node outer ≠ some (.file bytes)
  nodes : ∀ other, made.node other = if other <:+ dst then some .directory else volume.node other
  complete : ∀ name, name ∈ names ↔ (made.node (name :: src)).isSome = true

namespace Prepared

variable {made after : Volume Name} {names : List Name}

theorem sources (prepared : Prepared volume made src dst names) (relative : List Name) :
    made.node (relative ++ src) = volume.node (relative ++ src) := by
  rw [prepared.nodes, if_neg]
  intro around
  exact prepared.apart.1 ((List.suffix_append relative src).trans around)

theorem entries (prepared : Prepared volume made src dst names) (name : Name)
    (relative : List Name) :
    made.node (relative ++ name :: src) = volume.node (relative ++ name :: src) := by
  have same := prepared.sources (relative ++ [name])
  rwa [List.append_assoc, List.singleton_append] at same

theorem below (prepared : Prepared volume made src dst names) (name : Name)
    (relative : List Name) :
    made.node (relative ++ name :: dst) = volume.node (relative ++ name :: dst) := by
  rw [prepared.nodes, if_neg]
  intro around
  have bound := around.length_le
  rw [List.length_append, List.length_cons] at bound
  omega

theorem absent (prepared : Prepared volume made src dst names) (unlisted : name ∉ names)
    (relative : List Name) : volume.node (relative ++ name :: src) = none := by
  rw [prepared.complete, Option.isSome_iff_ne_none, not_not] at unlisted
  rw [← prepared.entries]
  exact Volume.node_append_of_none unlisted relative

theorem fits (prepared : Prepared volume made src dst names)
    (entryFits : ∀ name ∈ names, EntryFits made src dst name) : Fits volume src dst := by
  constructor
  · exact prepared.clear
  · intro relative
    rcases List.eq_nil_or_concat relative with rfl | ⟨inner, name, rfl⟩
    · rw [List.nil_append, List.nil_append, prepared.source]
      rintro (⟨-, bytes, file⟩ | ⟨-, bytes, file⟩)
      · exact prepared.clear dst List.suffix_rfl bytes file
      · cases file
    · rw [List.concat_append, List.concat_append]
      by_cases listed : name ∈ names
      · rw [← prepared.entries, ← prepared.below]
        exact entryFits name listed inner
      · rw [prepared.absent listed]
        exact not_clash_of_none

theorem entryFits (prepared : Prepared volume made src dst names) (fits : Fits volume src dst)
    (name : Name) : EntryFits made src dst name := by
  intro relative
  rw [prepared.entries, prepared.below]
  have agree := fits.agree (relative ++ [name])
  rwa [List.append_assoc, List.append_assoc, List.singleton_append, List.singleton_append] at agree

theorem laidOver (prepared : Prepared volume made src dst names)
    (progress : Progress made src dst names after) : LaidOver volume src dst after := by
  have directory : made.node dst = some .directory := by
    rw [prepared.nodes, if_pos List.suffix_rfl]
  constructor
  · intro relative
    rcases List.eq_nil_or_concat relative with rfl | ⟨inner, name, rfl⟩
    · rw [List.nil_append, List.nil_append, prepared.source,
        progress.directory directory List.suffix_rfl]
      rfl
    · rw [List.concat_append, List.concat_append]
      by_cases listed : name ∈ names
      · rw [progress.copied name listed, prepared.entries, prepared.below]
      · rw [progress.target listed, prepared.below, prepared.absent listed, Option.none_or]
  · intro outer around
    exact progress.directory directory around
  · intro place elsewhere outer
    rw [progress.outside elsewhere, prepared.nodes, if_neg outer]

theorem lays (prepared : Prepared volume made src dst names)
    (copies : Copies made src dst [] names outcome) : Lays volume src dst outcome := by
  cases outcome with
  | ok _ after =>
      rcases copies with ⟨entryFits, progress⟩
      rw [List.append_nil] at progress
      exact ⟨prepared.fits entryFits, prepared.laidOver progress⟩
  | error error after =>
      cases error with
      | outOfFuel => exact copies
      | io failure =>
          rcases copies with ⟨⟨name, -, unfit⟩, same⟩
          constructor
          · exact fun fits => unfit (prepared.entryFits fits name)
          · intro place elsewhere outer
            rw [same place elsewhere outer, prepared.nodes, if_neg outer]

end Prepared

theorem copyDirRecursive_lays {order : ReadOrder Name} (lawful : order.Lawful)
    {volume : Volume Name} (apart : Apart src dst) (source : volume.node src = some .directory)
    (shallow : Shallow volume src fuel) :
    Lays volume src dst ((copyDirRecursive order fuel src dst).run volume) := by
  induction fuel generalizing src dst volume with
  | zero =>
      have impossible := shallow []
      rw [List.nil_append, source] at impossible
      exact absurd (impossible rfl) (Nat.not_lt_zero _)
  | succ fuel induction =>
      rw [copyDirRecursive]
      rcases Volume.createDirAll_cases volume dst with
        ⟨⟨outer, bytes, around, file⟩, failure, failed⟩ | ⟨clear, made, ran, nodes⟩
      · have stopped : (operation fun volume => volume.createDirAll dst).run volume =
            .error (.io failure) volume := by
          simp only [operation, failed]
        rw [bind_of_error stopped]
        exact ⟨fun fits => fits.clear outer around bytes file, fun _ _ _ => rfl⟩
      · have created : (operation fun volume => volume.createDirAll dst).run volume =
            .ok () made := by
          simp only [operation, ran]
        have kept : made.node src = some .directory := by
          rw [nodes, if_neg apart.1, source]
        have read : (readDir order src).run made =
            .ok (order made src (made.children src)) made := by
          simp only [readDir, kept]
        have directory : made.node dst = some .directory := by
          rw [nodes, if_pos List.suffix_rfl]
        have listed : ∀ name, name ∈ order made src (made.children src) ↔
            (made.node (name :: src)).isSome = true := by
          intro name
          rw [(lawful made src _).mem_iff, Volume.mem_children]
        have prepared : Prepared volume made src dst _ := ⟨apart, source, clear, nodes, listed⟩
        rw [bind_of_ok created, bind_of_ok read]
        apply prepared.lays
        apply copyEntries_copies apart directory
        · intro name current entry same
          apply induction (apart.cons name)
          · rw [← entry]
            exact same [name]
          · apply shallow.entry
            intro relative
            rw [same, prepared.sources]
        · exact ⟨fun name member => absurd member List.not_mem_nil, fun place _ => rfl⟩
        · intro name member
          exact (listed name).mp member
        · rw [List.append_nil]
          exact (lawful made src _).nodup_iff.mpr (Volume.nodup_children made src)

/-! ## A destination inside of the source -/

omit [DecidableEq Name] in
theorem leads_operation {change : Volume Name → Except VolumeFailure (Volume Name)}
    (keeps : ∀ {volume after}, change volume = .ok after → Volume.KeepsDirectories volume after) :
    Leads Volume.KeepsDirectories (operation change) := by
  intro volume
  rw [operation]
  dsimp only
  split
  · next changed => exact keeps changed
  · exact Std.Refl.refl volume

omit [DecidableEq Name] in
theorem leads_fileType (place : List Name) : Leads Volume.KeepsDirectories (fileType place) := by
  intro volume
  rw [fileType]
  dsimp only
  split
  · exact Std.Refl.refl volume
  · exact Std.Refl.refl volume

theorem leads_readDir (order : ReadOrder Name) (place : List Name) :
    Leads Volume.KeepsDirectories (readDir order place) := by
  intro volume
  rw [readDir]
  dsimp only
  split
  · exact Std.Refl.refl volume
  · exact Std.Refl.refl volume
  · exact Std.Refl.refl volume

section

variable {recurse : List Name → List Name → VolumeRun Name Unit}
  (leads : ∀ src dst, Leads Volume.KeepsDirectories (recurse src dst))

include leads

theorem leads_copyEntry (src dst : List Name) (name : Name) :
    Leads Volume.KeepsDirectories (copyEntry recurse src dst name) := by
  apply leads_bind (leads_fileType _)
  intro type
  split
  · exact leads _ _
  · exact leads_operation Volume.keepsDirectories_copyFile

theorem leads_copyEntries (src dst : List Name) (names : List Name) :
    Leads Volume.KeepsDirectories (copyEntries recurse src dst names) := by
  induction names with
  | nil => exact leads_pure ()
  | cons name rest induction =>
      apply leads_bind (leads_copyEntry leads src dst name)
      intro _
      exact induction

theorem exists_recursion {volume : Volume Name} (member : name ∈ names)
    (directory : volume.node (name :: src) = some .directory)
    (ran : (copyEntries recurse src dst names).run volume = .ok () after) :
    ∃ before between, (recurse (name :: src) (name :: dst)).run before = .ok () between := by
  induction names generalizing volume with
  | nil => cases member
  | cons first rest induction =>
      rw [copyEntries] at ran
      rcases bind_eq_ok.mp ran with ⟨_, middle, copied, onward⟩
      rcases List.mem_cons.mp member with rfl | later
      · rw [copyEntry, bind_of_ok (fileType_run directory), if_pos rfl] at copied
        exact ⟨volume, middle, copied⟩
      · exact induction later ((leads_copyEntry leads src dst first).of_ok copied _ directory)
          onward

end

theorem leads_copyDirRecursive (order : ReadOrder Name) (fuel : Nat) (src dst : List Name) :
    Leads Volume.KeepsDirectories (copyDirRecursive order fuel src dst) := by
  induction fuel generalizing src dst with
  | zero => exact leads_fail _
  | succ fuel induction =>
      apply leads_bind (leads_operation Volume.keepsDirectories_createDirAll)
      intro _
      apply leads_bind (leads_readDir order src)
      intro names
      exact leads_copyEntries induction src dst names

/-- The copy into a directory below the source never comes to an end: the way to the
destination is itself an entry, and the destination is below it again. -/
theorem copyDirRecursive_not_ok_of_below {order : ReadOrder Name} (lawful : order.Lawful)
    (fuel : Nat) {src relative : List Name} (below : relative ≠ []) (volume after : Volume Name) :
    (copyDirRecursive order fuel src (relative ++ src)).run volume ≠ .ok () after := by
  intro ran
  induction fuel generalizing src relative volume after with
  | zero => cases ran
  | succ fuel induction =>
      rcases List.eq_nil_or_concat relative with rfl | ⟨inner, name, rfl⟩
      · exact below rfl
      · rw [copyDirRecursive, List.concat_append] at ran
        rcases bind_eq_ok.mp ran with ⟨_, made, created, onward⟩
        rcases bind_eq_ok.mp onward with ⟨names, same, read, copied⟩
        have directory : made.node (name :: src) = some .directory := by
          rw [operation] at created
          dsimp only at created
          split at created
          · next made' changed =>
              cases created
              rcases Volume.createDirAll_cases volume (inner ++ name :: src) with
                ⟨-, failure, failed⟩ | ⟨-, other, succeeded, nodes⟩
              · rw [failed] at changed
                cases changed
              · rw [succeeded] at changed
                cases changed
                rw [nodes, if_pos (List.suffix_append _ _)]
          · cases created
        have listed : name ∈ names ∧ same = made := by
          rw [readDir] at read
          dsimp only at read
          split at read
          · cases read
            rw [(lawful made src _).mem_iff, Volume.mem_children, directory]
            exact ⟨rfl, rfl⟩
          · cases read
          · cases read
        rw [listed.2] at copied
        rcases exists_recursion (leads_copyDirRecursive order fuel) listed.1 directory copied with
          ⟨before, between, recursion⟩
        rw [← List.cons_append] at recursion
        exact induction (List.cons_ne_nil name inner) before between recursion

end

end WorktreeCopy

open WorktreeCopy

/-- Between places that are apart, every copy comes to an end: the source is laid over the
destination unless the two do not fit. -/
theorem copyDirRecursive_ends {Name : Type} [DecidableEq Name] (order : ReadOrder Name)
    (lawful : order.Lawful) (volume : Volume Name) (src dst : List Name)
    (source : volume.node src = some .directory) (apart : Apart src dst) :
    ∃ bound, ∀ fuel, bound ≤ fuel →
      Lays volume src dst ((copyDirRecursive order fuel src dst).run volume) := by
  rcases exists_shallow volume src with ⟨depth, shallow⟩
  refine ⟨depth, ?_⟩
  intro fuel enough
  exact copyDirRecursive_lays lawful apart source (shallow.mono enough)

namespace CopyTree

def empty : Volume String where
  node place := if place = [] then some .directory else none
  places := [[]]
  complete := by
    intro place present
    split at present
    next here => exact List.mem_singleton.mpr here
    next => cases present
  root := rfl
  closed := by
    intro name place present
    rw [if_neg (List.cons_ne_nil _ _)] at present
    cases present

def volume : Volume String :=
  (((empty.put "source" [] .directory rfl (by decide)).put "target" [] .directory rfl
    (by decide)).put "old" ["target"] (.file [1]) rfl (by decide)).put "new" ["source"]
      (.file [2]) rfl (by decide)

def order : ReadOrder String :=
  fun _ _ names => names

theorem lawful_order : order.Lawful :=
  fun _ _ _ => List.Perm.refl _

theorem apart_volume : Apart ["source"] ["target"] := by
  constructor
  · decide
  · decide

end CopyTree

theorem copyDirRecursive_ends_volume :
    ∃ bound, ∀ fuel, bound ≤ fuel → Lays CopyTree.volume ["source"] ["target"]
      ((copyDirRecursive CopyTree.order fuel ["source"] ["target"]).run CopyTree.volume) :=
  copyDirRecursive_ends CopyTree.order CopyTree.lawful_order CopyTree.volume ["source"]
    ["target"] rfl CopyTree.apart_volume

theorem copyDirRecursive_not_ok_volume : CopyTree.volume.node ["source"] = some .directory ∧
    (copyDirRecursive CopyTree.order 9 ["source"] ["in", "source"]).run CopyTree.volume ≠
      .ok () CopyTree.volume :=
  ⟨rfl, copyDirRecursive_not_ok_of_below CopyTree.lawful_order 9 (List.cons_ne_nil "in" [])
    CopyTree.volume CopyTree.volume⟩

namespace CopyTree

def nested : Volume String :=
  ((((empty.put "a" [] .directory rfl (by decide)).put "b" ["a"] .directory rfl
    (by decide)).put "c" ["b", "a"] (.file [1]) rfl (by decide)).put "b" ["b", "a"]
      .directory rfl (by decide)).put "c" ["b", "b", "a"] (.file [2]) rfl (by decide)

-- Into a directory around the source, the inner `b` is copied onto the source itself.
example :
    (match (copyDirRecursive order 4 ["b", "a"] ["a"]).run nested with
    | .ok _ after => after.node ["c", "a"]
    | .error _ _ => none) = some (.file [2]) := by
  decide

end CopyTree

def CopiesExactly {Name : Type} [DecidableEq Name] (order : ReadOrder Name)
    (volume : Volume Name) (src dst : List Name) : Prop :=
  ∃ bound, ∀ fuel, bound ≤ fuel →
    ∃ after, (copyDirRecursive order fuel src dst).run volume = .ok () after ∧
      ∀ relative, after.node (relative ++ dst) = volume.node (relative ++ src)

theorem not_copiesExactly_volume :
    ¬∀ (order : ReadOrder String) (volume : Volume String) (src dst : List String),
      order.Lawful → volume.node src = some .directory → volume.node dst = some .directory →
      CopiesExactly order volume src dst := by
  intro always
  rcases always CopyTree.order CopyTree.volume ["source"] ["target"] CopyTree.lawful_order rfl rfl
    with ⟨bound, exactly⟩
  rcases exists_shallow CopyTree.volume ["source"] with ⟨depth, shallow⟩
  rcases exactly (max bound depth) (Nat.le_max_left bound depth) with ⟨after, ran, same⟩
  have deep := shallow.mono (Nat.le_max_right bound depth)
  have lays := copyDirRecursive_lays CopyTree.lawful_order CopyTree.apart_volume rfl deep
  rw [ran] at lays
  have kept := lays.2.inside ["old"]
  rw [same ["old"]] at kept
  exact absurd kept (by decide)

end HarnessAgent
