import HarnessAgent.Foundation.Json

/-! # Statements on rows

Inserts that update the row they conflict with, and conditions on the columns of a row,
with numbered parameters. A table whose rows are the images of some values is one of
these values, each under its key.
-/

namespace HarnessAgent

namespace SqlRows

abbrev Row := Members

def parameter (params : List Value) : Nat → Option Value
  | 0 => none
  | index + 1 => params[index]?

/-- `INSERT INTO ... (columns) VALUES (placeholders) ON CONFLICT (target) DO UPDATE SET
column = EXCLUDED.column, ...` -/
structure Upsert where
  columns : List String
  placeholders : List Nat
  target : List String
  assigned : List String

namespace Upsert

variable (upsert : Upsert)

def excluded (params : List Value) : Row :=
  upsert.columns.zip (upsert.placeholders.map fun number => (parameter params number).getD .null)

def conflicts (excluded row : Row) : Bool :=
  upsert.target.all fun column => row.get column = excluded.get column

def assign (excluded row : Row) : Row :=
  upsert.assigned.foldl
    (fun row column => row.insert column ((excluded.get column).getD .null)) row

def execute (params : List Value) (rows : List Row) : List Row :=
  let excluded := upsert.excluded params
  if rows.any (upsert.conflicts excluded) then
    rows.map fun row =>
      if upsert.conflicts excluded row then upsert.assign excluded row else row
  else rows ++ [excluded]

end Upsert

abbrev Condition := List (String × Nat)

def Condition.holds (condition : Condition) (params : List Value) (row : Row) : Bool :=
  condition.all fun clause => (row.get clause.1).isSome && row.get clause.1 = parameter params clause.2

section

variable {α κ : Type} [DecidableEq κ] (key : α → κ)

def put (value : α) (values : List α) : List α :=
  if values.any fun other => key other = key value then
    values.map fun other => if key other = key value then value else other
  else values ++ [value]

variable {key} in
theorem key_of_find? {values : List α} {wanted : κ} {first : α}
    (found : values.find? (fun other => key other = wanted) = some first) :
    key first = wanted := by
  simpa using List.find?_some found

theorem find?_put (value : α) (values : List α) (wanted : κ) :
    (put key value values).find? (fun other => key other = wanted) =
      if key value = wanted then some value
      else values.find? fun other => key other = wanted := by
  rw [put]
  split
  next present =>
    have kept : (fun other => decide (key other = wanted)) ∘
        (fun other => if key other = key value then value else other) =
          fun other => decide (key other = wanted) := by
      funext other
      rw [Function.comp_apply]
      split
      next same => rw [same]
      next => rfl
    rw [List.find?_map, kept]
    by_cases same : key value = wanted
    · rw [if_pos same]
      rcases List.any_eq_true.mp present with ⟨other, member, agrees⟩
      have listed : (values.find? fun other => decide (key other = wanted)).isSome = true := by
        rw [List.find?_isSome]
        exact ⟨other, member, decide_eq_true ((of_decide_eq_true agrees).trans same)⟩
      rcases Option.isSome_iff_exists.mp listed with ⟨first, found⟩
      rw [found, Option.map_some, if_pos ((key_of_find? found).trans same.symm)]
    · rw [if_neg same]
      cases found : values.find? fun other => decide (key other = wanted) with
      | none => rfl
      | some first =>
          rw [Option.map_some, if_neg fun agrees => same (agrees.symm.trans (key_of_find? found))]
  next absent =>
    rw [List.find?_append, List.find?_singleton]
    by_cases same : key value = wanted
    · have missing : values.find? (fun other => decide (key other = wanted)) = none := by
        rw [List.find?_eq_none]
        intro other member agrees
        exact absent (List.any_eq_true.mpr
          ⟨other, member, decide_eq_true ((of_decide_eq_true agrees).trans same.symm)⟩)
      rw [missing, if_pos same, if_pos (decide_eq_true same), Option.none_or]
    · rw [if_neg same, if_neg (by simpa using same), Option.or_none]

theorem find?_remove (removed wanted : κ) (values : List α) :
    (values.filter fun other => key other ≠ removed).find? (fun other => key other = wanted) =
      if removed = wanted then none else values.find? fun other => key other = wanted := by
  rw [List.find?_filter]
  split
  next same =>
    rw [List.find?_eq_none]
    intro other _
    simp [same]
  next different =>
    congr 1
    funext other
    by_cases named : key other = wanted
    · simp [named, Ne.symm different]
    · simp [named]

variable {key} {upsert : Upsert} {encode : α → Row}

theorem execute_map_encode
    (conflicts : ∀ value other, upsert.conflicts (encode value) (encode other) =
      decide (key other = key value))
    (assigns : ∀ value other, upsert.assign (encode value) (encode other) = encode value)
    (excluded : upsert.excluded params = encode value) (values : List α) :
    upsert.execute params (values.map encode) = (put key value values).map encode := by
  have conflicting : (fun row => upsert.conflicts (encode value) row) ∘ encode =
      fun other => decide (key other = key value) := by
    funext other
    exact conflicts value other
  rw [Upsert.execute, excluded, put, List.any_map, conflicting]
  split
  · rw [List.map_map, List.map_map]
    congr 1
    funext other
    dsimp only [Function.comp_apply]
    rw [conflicts, assigns]
    split
    next same => rw [if_pos (of_decide_eq_true same)]
    next different => rw [if_neg fun same => different (decide_eq_true same)]
  · rw [List.map_append]
    rfl

end

end SqlRows

end HarnessAgent
