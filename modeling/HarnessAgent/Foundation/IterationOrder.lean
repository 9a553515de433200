import Mathlib.Data.Finmap

/-! # Maps without an order

A hash map does not keep its entries in an order. A pass over it meets them in some order,
another pass over an equal map perhaps in another one. What is computed in such a pass is
determined by the map if every order gives the same.
-/

namespace IterationOrder

universe u v w

abbrev Dictionary (κ : Type u) (ν : Type v) := Finmap fun _ : κ => ν

abbrev Pass (κ : Type u) (ν : Type v) := AList fun _ : κ => ν

variable {κ : Type u} {ν : Type v} {α : Type w}

def Meets (pass : Pass κ ν) (map : Dictionary κ ν) : Prop :=
  pass.toFinmap = map

def Determined (map : Dictionary κ ν) (result : Pass κ ν → α) : Prop :=
  ∃ value, ∀ pass, Meets pass map → result pass = value

theorem exists_meets (map : Dictionary κ ν) : ∃ pass, Meets pass map := by
  induction map using Finmap.induction_on with
  | H pass => exact ⟨pass, rfl⟩

section Lookup

variable [DecidableEq κ]

variable {map : Dictionary κ ν} {pass : Pass κ ν}

theorem Meets.lookup (meets : Meets pass map) (key : κ) : map.lookup key = pass.lookup key := by
  rw [← meets]
  exact Finmap.lookup_toFinmap key pass

theorem mem_entries_iff {entry : Sigma fun _ : κ => ν} :
    entry ∈ pass.entries ↔ pass.lookup entry.1 = some entry.2 :=
  (AList.mem_lookup_iff (a := entry.1) (b := entry.2) (s := pass)).symm

theorem Meets.mem_iff (meets : Meets pass map) {entry : Sigma fun _ : κ => ν} :
    entry ∈ pass.entries ↔ map.lookup entry.1 = some entry.2 := by
  rw [mem_entries_iff, meets.lookup]

theorem exists_meets_first (entry : map.lookup key = some value) :
    ∃ pass, Meets pass map ∧ pass.entries.head? = some ⟨key, value⟩ := by
  rcases exists_meets map with ⟨pass, meets⟩
  refine ⟨pass.insert key value, ?_, rfl⟩
  apply Finmap.ext_lookup
  intro other
  have same : (pass.insert key value).toFinmap = map.insert key value := by
    rw [← meets]
    exact (Finmap.insert_toFinmap key value pass).symm
  rw [same]
  by_cases equal : other = key
  · rw [equal, Finmap.lookup_insert, entry]
  · rw [Finmap.lookup_insert_of_ne map equal]

theorem Meets.exists_first (meets : Meets pass map) (nonempty : map ≠ ∅) :
    ∃ entry, pass.entries.head? = some entry ∧ map.lookup entry.1 = some entry.2 := by
  cases first : pass.entries.head? with
  | some entry => exact ⟨entry, rfl, meets.mem_iff.mp (List.mem_of_head? first)⟩
  | none =>
      have none : pass.entries = [] := List.head?_eq_none_iff.mp first
      have empty : map = ∅ := by
        apply Finmap.ext_lookup
        intro key
        rw [meets.lookup, Finmap.lookup_empty, AList.lookup, none]
        rfl
      exact absurd empty nonempty

theorem determined_first_iff (nonempty : map ≠ ∅) (result : (Sigma fun _ : κ => ν) → α) :
    Determined map (fun pass => pass.entries.head?.map result) ↔
      ∃ value, ∀ key found, map.lookup key = some found → result ⟨key, found⟩ = value := by
  constructor
  · intro determined
    rcases determined with ⟨value, same⟩
    rcases exists_meets map with ⟨pass, meets⟩
    rcases meets.exists_first nonempty with ⟨first, here, _⟩
    have shown := same pass meets
    dsimp only at shown
    rw [here] at shown
    refine ⟨result first, ?_⟩
    intro key found entry
    rcases exists_meets_first entry with ⟨other, again, begins⟩
    have alike := same other again
    dsimp only at alike
    rw [begins, ← shown] at alike
    exact Option.some.inj alike
  · intro alike
    rcases alike with ⟨value, same⟩
    refine ⟨some value, ?_⟩
    intro pass meets
    rcases meets.exists_first nonempty with ⟨first, here, entry⟩
    dsimp only
    rw [here, Option.map_some, same first.1 first.2 entry]

variable {μ : Type w}

def insertAll (change : ν → μ) (entries : List (Sigma fun _ : κ => ν)) (target : Pass κ μ) :
    Pass κ μ :=
  entries.foldl (fun map entry => map.insert entry.1 (change entry.2)) target

theorem insertAll_cons (change : ν → μ) (entry : Sigma fun _ : κ => ν)
    (rest : List (Sigma fun _ : κ => ν)) (target : Pass κ μ) :
    insertAll change (entry :: rest) target =
      insertAll change rest (target.insert entry.1 (change entry.2)) := rfl

theorem lookup_insertAll (change : ν → μ) (nodup : entries.NodupKeys) (target : Pass κ μ) (key : κ) :
    (insertAll change entries target).lookup key =
      ((entries.dlookup key).map change).or (target.lookup key) := by
  induction entries generalizing target with
  | nil => rfl
  | cons entry rest induction =>
      rcases List.nodupKeys_cons.mp nodup with ⟨new, nodupRest⟩
      rw [insertAll_cons, induction nodupRest]
      by_cases same : key = entry.1
      · subst same
        rw [List.dlookup_eq_none.mpr new, Option.map_none, Option.none_or, AList.lookup_insert,
          List.dlookup_cons_eq, Option.map_some, Option.some_or]
      · rw [AList.lookup_insert_ne same, List.dlookup_cons_ne rest _ same]

theorem lookup_insertAll_pass (change : ν → μ) (pass : Pass κ ν) (target : Pass κ μ) (key : κ) :
    (insertAll change pass.entries target).lookup key =
      ((pass.lookup key).map change).or (target.lookup key) :=
  lookup_insertAll change pass.nodupKeys target key

theorem toFinmap_eq_of_lookup {other : Pass κ ν}
    (same : ∀ key, pass.lookup key = other.lookup key) : pass.toFinmap = other.toFinmap := by
  apply Finmap.ext_lookup
  intro key
  rw [Finmap.lookup_toFinmap, Finmap.lookup_toFinmap, same]

theorem lookup_eq_of_toFinmap {other : Pass κ ν} (same : pass.toFinmap = other.toFinmap) (key : κ) :
    pass.lookup key = other.lookup key := by
  rw [← Finmap.lookup_toFinmap, same, Finmap.lookup_toFinmap]

end Lookup

end IterationOrder
