import Mathlib.Data.List.Nodup
import Mathlib.Data.List.Perm.Basic

/-! # Maps in the order of insertion

A map that keeps its entries in the order in which their keys first came. Another value for
a known key takes the place of the old one. Collecting entries into a map can also refuse a
known key.
-/

universe u v w

structure InsertionMap (κ : Type u) (ν : Type v) where
  entries : List (κ × ν)
  distinct : (entries.map Prod.fst).Nodup

namespace InsertionMap

variable {κ : Type u} {ν : Type v} [DecidableEq κ]

def empty : InsertionMap κ ν := ⟨[], List.nodup_nil⟩

def keys (map : InsertionMap κ ν) : List κ :=
  map.entries.map Prod.fst

def get (map : InsertionMap κ ν) (key : κ) : Option ν :=
  map.entries.lookup key

/-! ## Entries -/

/-- The value takes the place of the key, or comes last. -/
def insertEntry (key : κ) (value : ν) : List (κ × ν) → List (κ × ν)
  | [] => [(key, value)]
  | (other, old) :: rest =>
      if other = key then (key, value) :: rest else (other, old) :: insertEntry key value rest

theorem lookup_cons (key other : κ) (value : ν) (rest : List (κ × ν)) :
    List.lookup key ((other, value) :: rest) =
      if key = other then some value else rest.lookup key := by
  rw [List.lookup_cons]
  by_cases same : key = other
  · rw [if_pos same, beq_iff_eq.mpr same]
  · rw [if_neg same, beq_eq_false_iff_ne.mpr same]

variable {entries : List (κ × ν)} {key : κ}

theorem mem_keys_insertEntry {other : κ} {value : ν} :
    other ∈ (insertEntry key value entries).map Prod.fst ↔
      other = key ∨ other ∈ entries.map Prod.fst := by
  induction entries with
  | nil => simp [insertEntry]
  | cons entry rest induction =>
      rcases entry with ⟨known, old⟩
      rw [insertEntry]
      by_cases same : known = key
      · rw [if_pos same]
        simp [same]
      · rw [if_neg same, List.map_cons, List.mem_cons, induction]
        simp only [List.map_cons, List.mem_cons]
        exact or_left_comm

theorem nodup_insertEntry {value : ν} (distinct : (entries.map Prod.fst).Nodup) :
    ((insertEntry key value entries).map Prod.fst).Nodup := by
  induction entries with
  | nil => exact List.nodup_singleton key
  | cons entry rest induction =>
      rcases entry with ⟨known, old⟩
      rcases List.nodup_cons.mp distinct with ⟨new, others⟩
      rw [insertEntry]
      by_cases same : known = key
      · rw [if_pos same, List.map_cons, ← same]
        exact distinct
      · rw [if_neg same, List.map_cons, List.nodup_cons]
        refine ⟨fun member => ?_, induction others⟩
        rcases mem_keys_insertEntry.mp member with equal | inRest
        · exact same equal
        · exact new inRest

theorem lookup_insertEntry (key other : κ) (value : ν) (entries : List (κ × ν)) :
    (insertEntry key value entries).lookup other =
      if other = key then some value else entries.lookup other := by
  induction entries with
  | nil => exact lookup_cons other key value []
  | cons entry rest induction =>
      rcases entry with ⟨known, old⟩
      rw [insertEntry]
      by_cases same : known = key
      · rw [if_pos same, lookup_cons, lookup_cons, same]
        by_cases found : other = key
        · rw [if_pos found, if_pos found]
        · rw [if_neg found, if_neg found, if_neg found]
      · rw [if_neg same, lookup_cons, lookup_cons, induction]
        by_cases found : other = known
        · rw [if_pos found, if_pos found, if_neg (found ▸ same)]
        · rw [if_neg found, if_neg found]

theorem lookup_eq_some_iff (distinct : (entries.map Prod.fst).Nodup) {value : ν} :
    entries.lookup key = some value ↔ (key, value) ∈ entries := by
  induction entries with
  | nil => exact iff_of_false nofun List.not_mem_nil
  | cons entry rest induction =>
      rcases entry with ⟨known, old⟩
      rcases List.nodup_cons.mp distinct with ⟨new, others⟩
      rw [lookup_cons, List.mem_cons, Prod.mk.injEq]
      by_cases same : key = known
      · subst same
        rw [if_pos rfl, Option.some.injEq]
        constructor
        · intro equal
          exact .inl ⟨rfl, equal.symm⟩
        · intro either
          rcases either with equal | inRest
          · exact equal.2.symm
          · exact absurd (List.mem_map_of_mem inRest) new
      · rw [if_neg same, induction others]
        exact ⟨.inr, fun either => either.resolve_left fun equal => same equal.1⟩

theorem lookup_eq_none_iff : entries.lookup key = none ↔ key ∉ entries.map Prod.fst := by
  induction entries with
  | nil => simp
  | cons entry rest induction =>
      rcases entry with ⟨known, old⟩
      rw [lookup_cons, List.map_cons, List.mem_cons, not_or]
      by_cases same : key = known
      · rw [if_pos same]
        exact iff_of_false nofun fun both => both.1 same
      · rw [if_neg same, induction]
        exact ⟨fun new => ⟨same, new⟩, And.right⟩

/-- The order of entries with distinct keys does not matter for what is found. -/
theorem lookup_eq_of_perm {left right : List (κ × ν)} (same : left.Perm right)
    (distinct : (left.map Prod.fst).Nodup) (key : κ) : left.lookup key = right.lookup key := by
  have distinctToo := (same.map Prod.fst).nodup_iff.mp distinct
  apply Option.ext
  intro value
  rw [lookup_eq_some_iff distinct, lookup_eq_some_iff distinctToo, same.mem_iff]

/-! ## Insertion -/

def insert (map : InsertionMap κ ν) (key : κ) (value : ν) : InsertionMap κ ν :=
  ⟨insertEntry key value map.entries, nodup_insertEntry map.distinct⟩

@[simp] theorem get_empty (key : κ) : (empty : InsertionMap κ ν).get key = none := rfl

theorem get_insert (map : InsertionMap κ ν) (key other : κ) (value : ν) :
    (map.insert key value).get other = if other = key then some value else map.get other :=
  lookup_insertEntry key other value map.entries

variable {map : InsertionMap κ ν}

theorem get_eq_none_iff : map.get key = none ↔ key ∉ map.keys :=
  lookup_eq_none_iff

theorem insertEntry_of_not_mem (new : key ∉ entries.map Prod.fst) (value : ν) :
    insertEntry key value entries = entries ++ [(key, value)] := by
  induction entries with
  | nil => rfl
  | cons entry rest induction =>
      rcases entry with ⟨known, old⟩
      rw [List.map_cons, List.mem_cons, not_or] at new
      rw [insertEntry, if_neg fun same => new.1 same.symm, induction new.2, List.cons_append]

theorem keys_insert_of_not_mem (new : key ∉ map.keys) (value : ν) :
    (map.insert key value).keys = map.keys ++ [key] := by
  change (insertEntry key value map.entries).map Prod.fst = _
  rw [insertEntry_of_not_mem new, List.map_append]
  rfl

/-- Later values replace earlier ones. -/
def insertAll (map : InsertionMap κ ν) (entries : List (κ × ν)) : InsertionMap κ ν :=
  entries.foldl (fun map entry => map.insert entry.1 entry.2) map

theorem get_insertAll (map : InsertionMap κ ν) (distinct : (entries.map Prod.fst).Nodup) (key : κ) :
    (map.insertAll entries).get key = (entries.lookup key).or (map.get key) := by
  induction entries generalizing map with
  | nil => rfl
  | cons entry rest induction =>
      rcases entry with ⟨known, value⟩
      rcases List.nodup_cons.mp distinct with ⟨new, others⟩
      rw [insertAll, List.foldl_cons, ← insertAll, induction _ others, get_insert, lookup_cons]
      by_cases same : key = known
      · subst same
        rw [if_pos rfl, if_pos rfl, lookup_eq_none_iff.mpr new]
        rfl
      · rw [if_neg same, if_neg same]

/-! ## Collecting -/

section Collecting

variable {ε : Type w} (duplicate : κ → ν → ν → ε)

/-- A visit comes upon an entry or upon an error. An entry with a known key is refused. -/
def addNew (map : InsertionMap κ ν) : Except ε (κ × ν) → Except ε (InsertionMap κ ν)
  | .error error => .error error
  | .ok (key, value) =>
      match map.get key with
      | some existing => .error (duplicate key existing value)
      | none => .ok (map.insert key value)

def collect (map : InsertionMap κ ν) (visits : List (Except ε (κ × ν))) :
    Except ε (InsertionMap κ ν) :=
  visits.foldlM (addNew duplicate) map

def visited (visits : List (Except ε (κ × ν))) : List (κ × ν) :=
  visits.filterMap Except.toOption

variable {duplicate}

theorem collect_append (map : InsertionMap κ ν) (front back : List (Except ε (κ × ν))) :
    collect duplicate map (front ++ back) =
      collect duplicate map front >>= fun left => collect duplicate left back :=
  List.foldlM_append

theorem collect_error_cons (map : InsertionMap κ ν) (error : ε)
    (rest : List (Except ε (κ × ν))) :
    collect duplicate map (.error error :: rest) = .error error := by
  rw [collect, List.foldlM_cons]
  rfl

theorem collect_known_cons (known : map.get key = some existing) (value : ν)
    (rest : List (Except ε (κ × ν))) :
    collect duplicate map (.ok (key, value) :: rest) =
      .error (duplicate key existing value) := by
  rw [collect, List.foldlM_cons, addNew, known]
  rfl

theorem collect_new_cons (new : map.get key = none) (value : ν) (rest : List (Except ε (κ × ν))) :
    collect duplicate map (.ok (key, value) :: rest) =
      collect duplicate (map.insert key value) rest := by
  rw [collect, List.foldlM_cons, addNew, new]
  rfl

def Apart (map : InsertionMap κ ν) (visits : List (Except ε (κ × ν))) : Prop :=
  (map.keys ++ (visited visits).map Prod.fst).Nodup

omit [DecidableEq κ] in
theorem apart_nil (map : InsertionMap κ ν) : Apart map ([] : List (Except ε (κ × ν))) := by
  rw [Apart, visited, List.filterMap_nil, List.map_nil, List.append_nil]
  exact map.distinct

theorem not_apart_of_known (known : map.get key = some existing) (value : ν)
    (rest : List (Except ε (κ × ν))) : ¬Apart map (.ok (key, value) :: rest) := by
  intro apart
  have member : key ∈ map.keys := by
    by_contra new
    rw [get_eq_none_iff.mpr new] at known
    cases known
  exact (List.nodup_append.mp apart).2.2 key member key List.mem_cons_self rfl

theorem apart_cons_iff (new : map.get key = none) (value : ν) (rest : List (Except ε (κ × ν))) :
    Apart map (.ok (key, value) :: rest) ↔ Apart (map.insert key value) rest := by
  have keys := keys_insert_of_not_mem (get_eq_none_iff.mp new) value
  rw [Apart, Apart, keys, List.append_assoc]
  rfl

variable {visits : List (Except ε (κ × ν))}

theorem collect_eq_ok_iff {result : InsertionMap κ ν} :
    collect duplicate map visits = .ok result ↔
      (∀ error, .error error ∉ visits) ∧ Apart map visits ∧
        result = map.insertAll (visited visits) := by
  induction visits generalizing map with
  | nil =>
      constructor
      · intro collected
        cases collected
        exact ⟨fun error => List.not_mem_nil, apart_nil _, rfl⟩
      · intro parts
        rw [parts.2.2]
        rfl
  | cons visit rest induction =>
      cases visit with
      | error error =>
          rw [collect_error_cons]
          exact iff_of_false nofun fun parts => parts.1 error List.mem_cons_self
      | ok entry =>
          rcases entry with ⟨key, value⟩
          cases found : map.get key with
          | some existing =>
              rw [collect_known_cons found]
              exact iff_of_false nofun fun parts => not_apart_of_known found value rest parts.2.1
          | none =>
              rw [collect_new_cons found, induction, apart_cons_iff found]
              simp only [List.mem_cons, reduceCtorEq, false_or]
              rfl

theorem collect_eq_error (failed : collect duplicate map visits = .error error) :
    .error error ∈ visits ∨
      (¬Apart map visits ∧ ∃ key existing value, error = duplicate key existing value) := by
  induction visits generalizing map with
  | nil => cases failed
  | cons visit rest induction =>
      cases visit with
      | error other =>
          rw [collect_error_cons] at failed
          cases failed
          exact .inl List.mem_cons_self
      | ok entry =>
          rcases entry with ⟨key, value⟩
          cases found : map.get key with
          | some existing =>
              rw [collect_known_cons found] at failed
              cases failed
              exact .inr ⟨not_apart_of_known found value rest, key, existing, value, rfl⟩
          | none =>
              rw [collect_new_cons found] at failed
              rw [apart_cons_iff found]
              exact (induction failed).imp_left (List.mem_cons_of_mem _)

/-- Two results of collecting: both fail, or the same is found in both. -/
def Agree : Except ε (InsertionMap κ ν) → Except ε (InsertionMap κ ν) → Prop
  | .error _, .error _ => True
  | .ok left, .ok right => ∀ key, left.get key = right.get key
  | _, _ => False

theorem Agree.bind {left right : Except ε (InsertionMap κ ν)} (agree : Agree left right)
    {next other : InsertionMap κ ν → Except ε (InsertionMap κ ν)}
    (steps : ∀ first second : InsertionMap κ ν, (∀ key, first.get key = second.get key) →
      Agree (next first) (other second)) : Agree (left >>= next) (right >>= other) := by
  cases left with
  | error error =>
      cases right with
      | error error => trivial
      | ok map => exact agree.elim
  | ok map =>
      cases right with
      | error error => exact agree.elim
      | ok other => exact steps map other agree

theorem get_of_collect (collected : collect duplicate map visits = .ok result) (key : κ) :
    result.get key = ((visited visits).lookup key).or (map.get key) := by
  rcases collect_eq_ok_iff.mp collected with ⟨-, apart, rfl⟩
  exact get_insertAll map (List.nodup_append.mp apart).2.1 key

/-- The order of the visits decides neither whether they are collected nor what is found. -/
theorem collect_agree_of_perm (map : InsertionMap κ ν) {left right : List (Except ε (κ × ν))}
    (same : left.Perm right) :
    Agree (collect duplicate map left) (collect duplicate map right) := by
  have visitedSame : (visited left).Perm (visited right) := same.filterMap _
  have keysSame : (map.keys ++ (visited left).map Prod.fst).Perm
      (map.keys ++ (visited right).map Prod.fst) :=
    (visitedSame.map Prod.fst).append_left map.keys
  have transfer : ∀ {first second : List (Except ε (κ × ν))} {result}, first.Perm second →
      (Apart map first → Apart map second) → collect duplicate map first = .ok result →
      ∃ other, collect duplicate map second = .ok other := by
    intro first second result permuted apart collected
    rcases collect_eq_ok_iff.mp collected with ⟨fine, distinct, -⟩
    exact ⟨_, collect_eq_ok_iff.mpr
      ⟨fun error member => fine error (permuted.mem_iff.mpr member), apart distinct, rfl⟩⟩
  cases onLeft : collect duplicate map left with
  | error error =>
      cases onRight : collect duplicate map right with
      | error other => trivial
      | ok result =>
          rcases transfer same.symm keysSame.nodup_iff.mpr onRight with ⟨other, collected⟩
          rw [onLeft] at collected
          cases collected
  | ok result =>
      rcases transfer same keysSame.nodup_iff.mp onLeft with ⟨other, onRight⟩
      rw [onRight]
      intro key
      have distinct := (collect_eq_ok_iff.mp onLeft).2.1
      rw [get_of_collect onLeft, get_of_collect onRight,
        lookup_eq_of_perm visitedSame (List.nodup_append.mp distinct).2.1]

end Collecting

end InsertionMap
