import Mathlib.Data.List.Nodup
import Mathlib.Data.List.Sort
import Mathlib.Order.Lattice

/-! # Tables with a primary key

A table is a list of rows with distinct keys. A conditional update rewrites the
rows that satisfy its guard and reports how many there were; a selection takes
the first row, in a given linear order, among those that satisfy a guard.
-/

universe u v w

structure Table {ρ : Type u} {κ : Type v} (key : ρ → κ) where
  rows : List ρ
  distinct : (rows.map key).Nodup

structure RowUpdate {ρ : Type u} {κ : Type v} (key : ρ → κ) where
  guard : ρ → Bool
  set : ρ → ρ
  keepsKey : ∀ row, key (set row) = key row

namespace RowUpdate

variable {ρ : Type u} {κ : Type v} {key : ρ → κ}

def apply (update : RowUpdate key) (row : ρ) : ρ :=
  if update.guard row then update.set row else row

theorem key_apply (update : RowUpdate key) (row : ρ) : key (update.apply row) = key row := by
  unfold apply
  split
  · exact update.keepsKey row
  · rfl

theorem apply_rule {motive : ρ → Prop} {update : RowUpdate key} {row : ρ} (kept : motive row)
    (given : update.guard row = true → motive (update.set row)) : motive (update.apply row) := by
  rw [apply]
  split
  · next holds => exact given holds
  · exact kept

end RowUpdate

namespace Table

variable {ρ : Type u} {κ : Type v} {key : ρ → κ}

def update (table : Table key) (change : RowUpdate key) : Table key where
  rows := table.rows.map change.apply
  distinct := by
    have same : (table.rows.map change.apply).map key = table.rows.map key := by
      rw [List.map_map]
      exact List.map_congr_left fun row _ => change.key_apply row
    rw [same]
    exact table.distinct

def affected (table : Table key) (change : RowUpdate key) : Nat :=
  table.rows.countP change.guard

section Lookup

variable [DecidableEq κ]

def find (table : Table key) (wanted : κ) : Option ρ :=
  table.rows.find? fun row => decide (key row = wanted)

theorem find_eq_some {table : Table key} {wanted : κ} {row : ρ} :
    table.find wanted = some row ↔ row ∈ table.rows ∧ key row = wanted := by
  constructor
  · intro found
    exact ⟨List.mem_of_find?_eq_some found, by simpa using List.find?_some found⟩
  · rintro ⟨member, rfl⟩
    have someRow : (table.rows.find? fun other => decide (key other = key row)).isSome :=
      List.find?_isSome.mpr ⟨row, member, by simp⟩
    rcases Option.isSome_iff_exists.mp someRow with ⟨other, found⟩
    have sameKey : key other = key row := by simpa using List.find?_some found
    obtain rfl : other = row := List.inj_on_of_nodup_map table.distinct
      (List.mem_of_find?_eq_some found) member sameKey
    exact found

theorem find_update (table : Table key) (change : RowUpdate key) (wanted : κ) :
    (table.update change).find wanted = (table.find wanted).map change.apply := by
  simp only [find, update, List.find?_map, Function.comp_def, change.key_apply]

def upsert (table : Table key) (row : ρ) : Table key where
  rows := table.rows.filter (fun other => key other ≠ key row) ++ [row]
  distinct := by
    have others : ((table.rows.filter fun other => key other ≠ key row).map key).Nodup :=
      table.distinct.sublist (List.filter_sublist.map key)
    rw [List.map_append, List.map_singleton, List.nodup_append]
    refine ⟨others, List.nodup_singleton _, ?_⟩
    intro kept listed own only
    rcases List.mem_map.mp listed with ⟨other, member, rfl⟩
    rw [List.mem_singleton.mp only]
    simpa using (List.mem_filter.mp member).2

theorem find_upsert (table : Table key) (row : ρ) (wanted : κ) :
    (table.upsert row).find wanted = if key row = wanted then some row else table.find wanted := by
  apply Option.ext
  intro other
  simp only [find_eq_some, upsert, List.mem_append, List.mem_filter, List.mem_singleton,
    decide_eq_true_eq]
  split
  · next same =>
      subst same
      constructor
      · rintro ⟨⟨-, different⟩ | rfl, equal⟩
        · exact absurd equal different
        · rfl
      · rintro ⟨⟩
        exact ⟨.inr rfl, rfl⟩
  · next different =>
      rw [find_eq_some]
      constructor
      · rintro ⟨⟨member, -⟩ | rfl, equal⟩
        · exact ⟨member, equal⟩
        · exact absurd equal different
      · rintro ⟨member, rfl⟩
        exact ⟨.inl ⟨member, fun same => different same.symm⟩, rfl⟩

end Lookup

variable {table : Table key}

theorem affected_pos {change : RowUpdate key} :
    0 < table.affected change ↔ ∃ row ∈ table.rows, change.guard row = true :=
  List.countP_pos_iff

def deleteWhere (table : Table key) (guard : ρ → Bool) : Table key where
  rows := table.rows.filter fun row => !guard row
  distinct := table.distinct.sublist (List.filter_sublist.map key)

variable {guard : ρ → Bool}

theorem mem_deleteWhere {row : ρ} :
    row ∈ (table.deleteWhere guard).rows ↔ row ∈ table.rows ∧ guard row = false := by
  rw [deleteWhere, List.mem_filter, Bool.not_eq_true']

theorem key_mem_deleteWhere (member : row ∈ table.rows) :
    key row ∈ (table.deleteWhere guard).rows.map key ↔ guard row = false := by
  constructor
  · intro listed
    rcases List.mem_map.mp listed with ⟨other, kept, same⟩
    rcases mem_deleteWhere.mp kept with ⟨otherMember, left⟩
    obtain rfl : other = row := List.inj_on_of_nodup_map table.distinct otherMember member same
    exact left
  · intro left
    exact List.mem_map_of_mem (mem_deleteWhere.mpr ⟨member, left⟩)

section Selection

variable (order : ρ → ρ → Prop) [DecidableRel order]

/-- The first row in the given order among those that satisfy the guard. -/
def firstBy (table : Table key) (guard : ρ → Bool) : Option ρ :=
  ((table.rows.filter guard).insertionSort order).head?

theorem firstBy_eq_none :
    table.firstBy order guard = none ↔ ∀ row ∈ table.rows, guard row = false := by
  rw [firstBy, List.head?_eq_none_iff, List.eq_nil_iff_forall_not_mem]
  simp

variable [Std.Total order] [IsTrans ρ order]

theorem firstBy_least (first : table.firstBy order guard = some row) :
    row ∈ table.rows ∧ guard row = true ∧
      ∀ other ∈ table.rows, guard other = true → order row other := by
  have sorted := List.pairwise_insertionSort order (table.rows.filter guard)
  rcases List.head?_eq_some_iff.mp first with ⟨rest, split⟩
  have members : ∀ other, other ∈ row :: rest ↔ other ∈ table.rows ∧ guard other = true := by
    intro other
    rw [← split, List.mem_insertionSort, List.mem_filter]
  rw [split, List.pairwise_cons] at sorted
  have here := (members row).mp List.mem_cons_self
  refine ⟨here.1, here.2, fun other member holds => ?_⟩
  rcases List.mem_cons.mp ((members other).mpr ⟨member, holds⟩) with rfl | later
  · exact (Std.Total.total (r := order) other other).elim id id
  · exact sorted.1 other later

end Selection

end Table
