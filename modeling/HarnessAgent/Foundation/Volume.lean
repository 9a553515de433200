import HarnessAgent.Foundation.StatefulRun
import Mathlib.Data.List.Dedup

/-! # Volumes

File systems of directories and regular files. A place is written from the inside out:
the name of an entry stands before the names of the directories around it, so a place
lies below those that it ends with.
-/

inductive VolumeNode
  | directory
  | file (bytes : List UInt8)
  deriving DecidableEq, Repr

inductive VolumeFailure
  | notFound
  | alreadyExists
  | notADirectory
  | isADirectory
  deriving DecidableEq, Repr

structure Volume (Name : Type) where
  node : List Name → Option VolumeNode
  places : List (List Name)
  complete : ∀ place, (node place).isSome = true → place ∈ places
  root : node [] = some .directory
  closed : ∀ name place, (node (name :: place)).isSome = true → node place = some .directory

namespace Volume

variable {Name : Type} [DecidableEq Name]

/-! ## Operations -/

def put (volume : Volume Name) (name : Name) (place : List Name) (entry : VolumeNode)
    (inside : volume.node place = some .directory)
    (free : volume.node (name :: place) ≠ some .directory) : Volume Name where
  node := fun other => if other = name :: place then some entry else volume.node other
  places := (name :: place) :: volume.places
  complete := by
    intro other present
    split at present
    next same => exact List.mem_cons.mpr (.inl same)
    next => exact List.mem_cons_of_mem _ (volume.complete other present)
  root := by
    rw [if_neg (List.cons_ne_nil _ _).symm]
    exact volume.root
  closed := by
    intro inner outer present
    split at present
    next same =>
      cases same
      rw [if_neg (List.cons_ne_self _ _).symm]
      exact inside
    next =>
      have directory := volume.closed inner outer present
      rw [if_neg]
      · exact directory
      · intro same
        rw [same] at directory
        exact free directory

def missing (volume : Volume Name) : List Name → VolumeFailure
  | [] => .notFound
  | name :: place =>
      match volume.node (name :: place) with
      | some .directory => .notFound
      | some (.file _) => .notADirectory
      | none => volume.missing place

def makeDirectory (volume : Volume Name) : List Name → Except VolumeFailure (Volume Name)
  | [] => .error .alreadyExists
  | name :: place =>
      if inside : volume.node place = some .directory then
        if free : volume.node (name :: place) = none then
          .ok (volume.put name place .directory inside (by simp [free]))
        else .error .alreadyExists
      else .error (volume.missing place)

def createDirAll (volume : Volume Name) : List Name → Except VolumeFailure (Volume Name)
  | [] => .ok volume
  | name :: place =>
      match volume.node (name :: place) with
      | some .directory => .ok volume
      | some (.file _) => .error .alreadyExists
      | none =>
          match volume.createDirAll place with
          | .error _ => .error .notADirectory
          | .ok made => made.makeDirectory (name :: place)

def write (volume : Volume Name) (bytes : List UInt8) :
    List Name → Except VolumeFailure (Volume Name)
  | [] => .error .isADirectory
  | name :: place =>
      if inside : volume.node place = some .directory then
        if free : volume.node (name :: place) = some .directory then .error .isADirectory
        else .ok (volume.put name place (.file bytes) inside free)
      else .error (volume.missing place)

/-- Copying a file onto itself empties it: it is truncated before it is read. -/
def copyFile (volume : Volume Name) (source target : List Name) :
    Except VolumeFailure (Volume Name) :=
  match volume.node source with
  | none => .error (volume.missing source)
  | some .directory => .error .isADirectory
  | some (.file bytes) => volume.write (if source = target then [] else bytes) target

def children (volume : Volume Name) (place : List Name) : List Name :=
  (volume.places.filterMap fun other =>
    match other with
    | [] => none
    | name :: around =>
        if around = place ∧ (volume.node other).isSome = true then some name else none).dedup

/-! ## What they do -/

theorem nodup_children (volume : Volume Name) (place : List Name) : (volume.children place).Nodup :=
  List.nodup_dedup _

variable {place : List Name} {volume : Volume Name}

theorem mem_children {name : Name} :
    name ∈ volume.children place ↔ (volume.node (name :: place)).isSome = true := by
  rw [children, List.mem_dedup, List.mem_filterMap]
  constructor
  · rintro ⟨other, -, listed⟩
    split at listed
    · cases listed
    · next inner around =>
        split at listed
        · next both =>
            cases listed
            rw [← both.1]
            exact both.2
        · cases listed
  · intro present
    exact ⟨name :: place, volume.complete _ present, by simp [present]⟩

omit [DecidableEq Name] in
theorem directory_of_suffix {volume : Volume Name} {outer place : List Name}
    (directory : volume.node place = some .directory) (around : outer <:+ place) :
    volume.node outer = some .directory := by
  induction place with
  | nil =>
      rw [List.suffix_nil.mp around]
      exact volume.root
  | cons name place induction =>
      rcases List.suffix_cons_iff.mp around with rfl | further
      · exact directory
      · exact induction (volume.closed name place (by rw [directory]; rfl)) further

omit [DecidableEq Name] in
theorem node_append_of_none (empty : volume.node place = none) (inner : List Name) :
    volume.node (inner ++ place) = none := by
  induction inner with
  | nil => exact empty
  | cons name inner induction =>
      by_contra present
      have directory := volume.closed name (inner ++ place) (Option.isSome_iff_ne_none.mpr present)
      rw [induction] at directory
      cases directory

omit [DecidableEq Name] in
theorem node_append_of_file {bytes : List UInt8} (file : volume.node place = some (.file bytes))
    {inner : List Name} (below : inner ≠ []) : volume.node (inner ++ place) = none := by
  by_contra present
  rcases Option.ne_none_iff_exists'.mp present with ⟨node, found⟩
  have directory : volume.node place = some .directory := by
    cases inner with
    | nil => exact absurd rfl below
    | cons name inner =>
        have around := volume.closed name (inner ++ place)
          (Option.isSome_iff_ne_none.mpr present)
        exact directory_of_suffix around (List.suffix_append inner place)
  rw [file] at directory
  cases directory

theorem node_put {entry : VolumeNode} (inside : volume.node place = some .directory)
    (free : volume.node (name :: place) ≠ some .directory) (other : List Name) :
    (volume.put name place entry inside free).node other =
      if other = name :: place then some entry else volume.node other := rfl

/-- A file can be written into a directory unless it would replace another one. -/
theorem write_cases (volume : Volume Name) (bytes : List UInt8) {name : Name}
    (inside : volume.node place = some .directory) :
    (volume.node (name :: place) = some .directory ∧
        ∃ failure, volume.write bytes (name :: place) = .error failure) ∨
      (volume.node (name :: place) ≠ some .directory ∧
        ∃ after, volume.write bytes (name :: place) = .ok after ∧
          ∀ other, after.node other =
            if other = name :: place then some (.file bytes) else volume.node other) := by
  rw [write, dif_pos inside]
  split
  · next taken => exact .inl ⟨taken, _, rfl⟩
  · next free => exact .inr ⟨free, _, rfl, fun other => rfl⟩

theorem createDirAll_cases (volume : Volume Name) (place : List Name) :
    ((∃ outer bytes, outer <:+ place ∧ volume.node outer = some (.file bytes)) ∧
        ∃ failure, volume.createDirAll place = .error failure) ∨
      ((∀ outer, outer <:+ place → ∀ bytes, volume.node outer ≠ some (.file bytes)) ∧
        ∃ made, volume.createDirAll place = .ok made ∧
          ∀ other, made.node other =
            if other <:+ place then some .directory else volume.node other) := by
  induction place with
  | nil =>
      right
      constructor
      · intro outer around bytes
        rw [List.suffix_nil.mp around, volume.root]
        intro file
        cases file
      · refine ⟨volume, rfl, ?_⟩
        intro other
        split
        · next around => rw [List.suffix_nil.mp around, volume.root]
        · rfl
  | cons name place induction =>
      rw [createDirAll]
      cases found : volume.node (name :: place) with
      | some node =>
          cases node with
          | directory =>
              have directories := fun outer around =>
                @directory_of_suffix _ volume outer _ found around
              right
              constructor
              · intro outer around bytes
                rw [directories outer around]
                intro file
                cases file
              · refine ⟨volume, rfl, ?_⟩
                intro other
                split
                · next around => exact directories other around
                · rfl
          | file bytes => exact .inl ⟨⟨_, bytes, List.suffix_rfl, found⟩, _, rfl⟩
      | none =>
          rcases induction with ⟨⟨outer, bytes, around, file⟩, failure, failed⟩ |
            ⟨clear, made, ran, nodes⟩
          · left
            refine ⟨⟨outer, bytes, around.trans (List.suffix_cons _ _), file⟩, ?_⟩
            rw [failed]
            exact ⟨_, rfl⟩
          · right
            have longer : ¬name :: place <:+ place := by
              intro around
              have bound := around.length_le
              rw [List.length_cons] at bound
              omega
            have inside : made.node place = some .directory := by
              rw [nodes, if_pos List.suffix_rfl]
            have free : made.node (name :: place) = none := by
              rw [nodes, if_neg longer, found]
            constructor
            · intro outer around bytes file
              rcases List.suffix_cons_iff.mp around with rfl | further
              · rw [found] at file
                cases file
              · exact clear outer further bytes file
            · rw [ran]
              dsimp only
              rw [makeDirectory, dif_pos inside, dif_pos free]
              refine ⟨_, rfl, ?_⟩
              intro other
              rw [node_put, nodes]
              by_cases here : other = name :: place
              · rw [if_pos here, here, if_pos List.suffix_rfl]
              · have same : other <:+ name :: place ↔ other <:+ place := by
                  rw [List.suffix_cons_iff]
                  exact or_iff_right here
                rw [if_neg here]
                simp only [same]

/-! ## Directories stay -/

def KeepsDirectories (before after : Volume Name) : Prop :=
  ∀ place, before.node place = some .directory → after.node place = some .directory

omit [DecidableEq Name] in
instance : Std.Refl (@KeepsDirectories Name) where
  refl _ _ directory := directory

omit [DecidableEq Name] in
instance : IsTrans (Volume Name) KeepsDirectories where
  trans _ _ _ first second := fun place directory => second place (first place directory)

theorem keepsDirectories_write (written : volume.write bytes place = .ok after) :
    KeepsDirectories volume after := by
  cases place with
  | nil => cases written
  | cons name place =>
      rw [write] at written
      split at written
      · split at written
        · cases written
        · next free =>
            cases written
            intro other directory
            rw [node_put, if_neg]
            · exact directory
            · intro same
              rw [same] at directory
              exact free directory
      · cases written

theorem keepsDirectories_copyFile (copied : volume.copyFile source target = .ok after) :
    KeepsDirectories volume after := by
  rw [copyFile] at copied
  split at copied
  · cases copied
  · cases copied
  · exact keepsDirectories_write copied

theorem keepsDirectories_createDirAll (ran : volume.createDirAll place = .ok made) :
    KeepsDirectories volume made := by
  rcases createDirAll_cases volume place with ⟨-, failure, failed⟩ | ⟨-, other, succeeded, nodes⟩
  · rw [failed] at ran
    cases ran
  · rw [succeeded] at ran
    cases ran
    intro other directory
    rw [nodes]
    split
    · rfl
    · exact directory

end Volume
