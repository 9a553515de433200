import HarnessAgent.Foundation.EventRun
import Mathlib.Data.List.Induction

/-! # Growing texts

Several texts that grow in turns. An update of a text has all of it so far, and may say
what was added. Whoever writes down of each update what it says, or else all of it, has
written down the texts exactly if nothing was written twice and the texts came one after
the other.
-/

namespace GrowingTexts

open EventRun

structure Update (κ α : Type) where
  label : κ
  text : List α
  delta : Option (List α) := none
  deriving DecidableEq

section Texts

variable {κ α : Type} [DecidableEq κ]

def Update.said (update : Update κ α) : List α :=
  update.delta.getD update.text

def record (before : List (Update κ α)) (update : Update κ α) : List (Update κ α) :=
  before ++ [update]

def textOf (updates : List (Update κ α)) (label : κ) : List α :=
  ((updates.filter (·.label = label)).getLast?.map Update.text).getD []

def labels (updates : List (Update κ α)) : List κ :=
  updates.foldl (fun known update =>
    if update.label ∈ known then known else known ++ [update.label]) []

/-- An update has all of its text so far, and says what was added if it says anything. -/
def Extends (before : List (Update κ α)) (update : Update κ α) : Prop :=
  textOf before update.label <+: update.text ∧
    ∀ delta, update.delta = some delta → update.text = textOf before update.label ++ delta

def Grows (updates : List (Update κ α)) : Prop :=
  Along record Extends [] updates

def added (before : List (Update κ α)) (update : Update κ α) : List α :=
  update.text.drop (textOf before update.label).length

variable (wanted : κ → Bool)

def finals (updates : List (Update κ α)) : List α :=
  ((labels updates).filter wanted).flatMap (textOf updates)

def pieces : List (Update κ α) → List (Update κ α) → List α
  | _, [] => []
  | before, update :: rest =>
      (if wanted update.label then added before update else []) ++
        pieces (record before update) rest

def Clean (before : List (Update κ α)) (update : Update κ α) : Prop :=
  if wanted update.label then update.delta = none → textOf before update.label = []
  else update.said = []

structure Faithful (updates : List (Update κ α)) : Prop where
  clean : Along record (Clean wanted) [] updates
  inOrder : pieces wanted [] updates = finals wanted updates

variable {wanted} {before updates : List (Update κ α)} {update : Update κ α}

/-! ## One update -/

theorem textOf_record (before : List (Update κ α)) (update : Update κ α) (label : κ) :
    textOf (record before update) label =
      if update.label = label then update.text else textOf before label := by
  rw [textOf, record, List.filter_append]
  by_cases same : update.label = label
  · rw [List.filter_cons_of_pos (by simp [same]), if_pos same, List.getLast?_append]
    rfl
  · rw [List.filter_cons_of_neg (by simp [same]), if_neg same, List.filter_nil, List.append_nil,
      textOf]

theorem labels_record (before : List (Update κ α)) (update : Update κ α) :
    labels (record before update) =
      if update.label ∈ labels before then labels before
      else labels before ++ [update.label] := by
  rw [labels, record, List.foldl_append]
  rfl

theorem Extends.text_eq (extending : Extends before update) :
    update.text = textOf before update.label ++ added before update := by
  rcases extending.1 with ⟨more, split⟩
  rw [added, ← split, List.drop_left]

theorem Extends.said_of_delta (extending : Extends before update)
    (given : update.delta = some delta) : update.said = added before update := by
  rw [Update.said, given, added, extending.2 delta given, List.drop_left]
  rfl

/-- At least what was added is written down, and more of it only if a text is said again. -/
theorem Extends.length_said (extending : Extends before update) (wanted : κ → Bool) :
    (if wanted update.label then added before update else []).length ≤ update.said.length ∧
      ((if wanted update.label then added before update else []).length = update.said.length →
        Clean wanted before update) := by
  rw [Clean]
  cases wanted update.label with
  | false =>
      refine ⟨Nat.zero_le _, fun same => ?_⟩
      exact List.length_eq_zero_iff.mp same.symm
  | true =>
      cases given : update.delta with
      | some delta =>
          rw [if_pos rfl, extending.said_of_delta given]
          exact ⟨Nat.le_refl _, fun _ absent => absurd absent (Option.some_ne_none delta)⟩
      | none =>
          have said : update.said = textOf before update.label ++ added before update := by
            rw [Update.said, given, ← extending.text_eq]
            rfl
          rw [if_pos rfl, said, List.length_append]
          refine ⟨Nat.le_add_left _ _, fun same _ => ?_⟩
          apply List.length_eq_zero_iff.mp
          omega

theorem Extends.said_of_clean (extending : Extends before update)
    (clean : Clean wanted before update) :
    update.said = if wanted update.label then added before update else [] := by
  rw [Clean] at clean
  cases isWanted : wanted update.label with
  | false => simpa [isWanted] using clean
  | true =>
      rw [isWanted, if_pos rfl] at clean
      rw [if_pos rfl]
      cases given : update.delta with
      | some delta => exact extending.said_of_delta given
      | none =>
          rw [Update.said, given, added, clean given]
          rfl

/-! ## All updates -/

theorem flatMap_said_of_clean (grows : Along record Extends before updates)
    (clean : Along record (Clean wanted) before updates) :
    updates.flatMap Update.said = pieces wanted before updates := by
  induction updates generalizing before with
  | nil => rfl
  | cons update rest induction =>
      rw [List.flatMap_cons, pieces, induction grows.2 clean.2, grows.1.said_of_clean clean.1]

/-- Whoever writes down no more than what was added writes nothing twice. -/
theorem clean_of_length (grows : Along record Extends before updates) :
    (pieces wanted before updates).length ≤ (updates.flatMap Update.said).length ∧
      ((pieces wanted before updates).length = (updates.flatMap Update.said).length →
        Along record (Clean wanted) before updates) := by
  induction updates generalizing before with
  | nil => exact ⟨Nat.le_refl _, fun _ => trivial⟩
  | cons update rest induction =>
      rcases grows.1.length_said wanted with ⟨first, cleanFirst⟩
      rcases induction grows.2 with ⟨later, cleanLater⟩
      rw [List.flatMap_cons, pieces, List.length_append, List.length_append]
      refine ⟨Nat.add_le_add first later, fun same => ⟨cleanFirst ?_, cleanLater ?_⟩⟩
      · omega
      · omega

/-! ## The texts in the end -/

theorem nodup_labels (updates : List (Update κ α)) : (labels updates).Nodup := by
  induction updates using List.reverseRecOn with
  | nil => exact List.nodup_nil
  | append_singleton before update induction =>
      rw [← record, labels_record]
      split
      · exact induction
      · next new =>
          apply List.nodup_append.mpr
          refine ⟨induction, List.nodup_cons.mpr ⟨List.not_mem_nil, List.nodup_nil⟩, ?_⟩
          intro known member other single
          rw [List.mem_singleton.mp single]
          rintro rfl
          exact new member

theorem textOf_of_not_mem (new : label ∉ labels updates) : textOf updates label = [] := by
  induction updates using List.reverseRecOn with
  | nil => rfl
  | append_singleton before update induction =>
      rw [← record, labels_record] at new
      rw [← record, textOf_record]
      split at new
      · next known =>
          rw [if_neg (by rintro rfl; exact new known)]
          exact induction new
      · rw [List.mem_append, List.mem_singleton, not_or] at new
        rw [if_neg (Ne.symm new.2)]
        exact induction new.1

theorem flatMap_textOf_record {known : List κ} (others : update.label ∉ known) :
    known.flatMap (textOf (record before update)) = known.flatMap (textOf before) := by
  apply List.flatMap_congr
  intro label member
  rw [textOf_record, if_neg]
  rintro rfl
  exact others member

theorem finals_record_of_unwanted (unwanted : wanted update.label = false) :
    finals wanted (record before update) = finals wanted before := by
  have same : (labels (record before update)).filter wanted =
      (labels before).filter wanted := by
    rw [labels_record]
    split
    · rfl
    · rw [List.filter_append, List.filter_cons_of_neg (by simp [unwanted]), List.filter_nil,
        List.append_nil]
  rw [finals, same]
  apply flatMap_textOf_record
  intro member
  rw [(List.mem_filter.mp member).2] at unwanted
  cases unwanted

theorem finals_record_of_new (isWanted : wanted update.label = true)
    (new : update.label ∉ labels before) :
    finals wanted (record before update) = finals wanted before ++ added before update := by
  rw [finals, labels_record, if_neg new, List.filter_append, List.flatMap_append,
    List.filter_cons_of_pos isWanted, List.filter_nil,
    flatMap_textOf_record (fun member => new (List.mem_filter.mp member).1),
    List.flatMap_singleton, textOf_record, if_pos rfl, added, textOf_of_not_mem new]
  rfl

theorem finals_record_of_known (extending : Extends before update)
    (isWanted : wanted update.label = true) {first later : List κ}
    (split : labels before = first ++ update.label :: later) :
    finals wanted before = (first.filter wanted).flatMap (textOf before) ++
        textOf before update.label ++ (later.filter wanted).flatMap (textOf before) ∧
      finals wanted (record before update) = (first.filter wanted).flatMap (textOf before) ++
        (textOf before update.label ++ added before update) ++
          (later.filter wanted).flatMap (textOf before) := by
  have distinct := nodup_labels before
  rw [split] at distinct
  have notFirst : update.label ∉ first := fun member =>
    (List.nodup_append.mp distinct).2.2 _ member _ List.mem_cons_self rfl
  have notLater : update.label ∉ later :=
    (List.nodup_cons.mp (List.nodup_append.mp distinct).2.1).1
  constructor
  · rw [finals, split, List.filter_append, List.filter_cons_of_pos isWanted,
      List.flatMap_append, List.flatMap_cons, List.append_assoc]
  · have known : update.label ∈ labels before := by
      rw [split]
      exact List.mem_append_right first List.mem_cons_self
    rw [finals, labels_record, if_pos known, split, List.filter_append,
      List.filter_cons_of_pos isWanted, List.flatMap_append, List.flatMap_cons,
      flatMap_textOf_record (fun member => notFirst (List.mem_filter.mp member).1),
      flatMap_textOf_record (fun member => notLater (List.mem_filter.mp member).1),
      textOf_record, if_pos rfl, ← extending.text_eq, List.append_assoc]

theorem length_finals_record (extending : Extends before update) :
    (finals wanted (record before update)).length =
      (finals wanted before).length +
        (if wanted update.label then added before update else []).length := by
  cases isWanted : wanted update.label with
  | false => rw [finals_record_of_unwanted isWanted]; rfl
  | true =>
      rw [if_pos rfl]
      by_cases known : update.label ∈ labels before
      · rcases List.append_of_mem known with ⟨first, later, split⟩
        rcases finals_record_of_known extending isWanted split with ⟨old, new⟩
        rw [old, new]
        simp only [List.length_append]
        omega
      · rw [finals_record_of_new isWanted known, List.length_append]

theorem length_finals (grows : Along record Extends before updates) :
    (finals wanted (before ++ updates)).length =
      (finals wanted before).length + (pieces wanted before updates).length := by
  induction updates generalizing before with
  | nil => rw [List.append_nil]; rfl
  | cons update rest induction =>
      rw [← List.singleton_append, ← List.append_assoc, ← record, induction grows.2,
        length_finals_record grows.1, List.singleton_append, pieces, List.length_append,
        Nat.add_assoc]

theorem flatMap_said_eq_finals_iff (grows : Grows updates) :
    updates.flatMap Update.said = finals wanted updates ↔ Faithful wanted updates := by
  have length : (finals wanted updates).length = (pieces wanted [] updates).length := by
    have whole := @length_finals κ α _ wanted [] updates grows
    rw [List.nil_append] at whole
    rw [whole]
    exact Nat.zero_add _
  constructor
  · intro same
    have clean : Along record (Clean wanted) [] updates :=
      (clean_of_length grows).2 (by rw [← length, ← same])
    exact ⟨clean, by rw [← flatMap_said_of_clean grows clean, same]⟩
  · intro faithful
    rw [flatMap_said_of_clean grows faithful.clean, faithful.inOrder]

end Texts

end GrowingTexts
