import HarnessAgent.Foundation.Text

/-! # Replacing a text everywhere

What is replaced from left to right does not occur in the result, unless the replacement
brings it back. A text that is split at a character which the replaced one does not have
is replaced part by part.
-/

namespace Text

/-- Every occurrence of a pattern replaced. The empty pattern occurs around every
character. -/
def replace (pattern replacement text : List Char) : List Char :=
  if pattern = [] then replacement ++ text.flatMap (· :: replacement)
  else replaceLoop pattern replacement 0 text

variable {pattern replacement : List Char}

theorem replaceLoop_skip (skip : Nat) (text : List Char) :
    replaceLoop pattern replacement skip text =
      replaceLoop pattern replacement 0 (text.drop skip) := by
  induction text generalizing skip with
  | nil => rw [List.drop_nil, replaceLoop, replaceLoop]
  | cons character rest induction =>
      cases skip with
      | zero => rfl
      | succ skip => exact induction skip

theorem prefix_of_prefix_replaceLoop (shown : replacement ≠ [])
    (apart : ∀ character ∈ replacement, character ∉ part)
    (starts : part <+: replaceLoop pattern replacement 0 text) : part <+: text := by
  induction text generalizing part with
  | nil =>
      rw [replaceLoop] at starts
      exact starts
  | cons character rest induction =>
      rw [replaceLoop] at starts
      split at starts
      · rcases List.exists_cons_of_ne_nil shown with ⟨first, others, split⟩
        rw [split, List.cons_append] at starts
        rcases List.prefix_cons_iff.mp starts with rfl | ⟨more, same, -⟩
        · exact List.nil_prefix
        · have inside : first ∈ replacement := by
            rw [split]
            exact List.mem_cons_self
          have member : first ∈ part := by
            rw [same]
            exact List.mem_cons_self
          exact absurd member (apart first inside)
      · rcases List.prefix_cons_iff.mp starts with rfl | ⟨more, rfl, onward⟩
        · exact List.nil_prefix
        · apply List.cons_prefix_cons.mpr
          refine ⟨rfl, induction ?_ onward⟩
          intro other inside member
          exact apart other inside (List.mem_cons_of_mem character member)

theorem infix_of_infix_append (shown : part ≠ [])
    (apart : ∀ character ∈ replacement, character ∉ part) (occurs : part <:+: replacement ++ after) :
    part <:+: after := by
  rcases List.infix_append_iff.mp occurs with inside | inRest | ⟨before, rest, rfl, ends, starts⟩
  · rcases List.exists_cons_of_ne_nil shown with ⟨first, others, rfl⟩
    exact absurd List.mem_cons_self (apart first (inside.subset List.mem_cons_self))
  · exact inRest
  · cases before with
    | nil => exact starts.isInfix
    | cons first others =>
        have member : first ∈ first :: others ++ rest := List.mem_cons_self
        exact absurd member (apart first (ends.subset List.mem_cons_self))

theorem not_infix_replaceLoop (shown : pattern ≠ []) (marked : replacement ≠ [])
    (apart : ∀ character ∈ replacement, character ∉ pattern) (text : List Char) :
    ¬pattern <:+: replaceLoop pattern replacement 0 text := by
  induction size : text.length using Nat.strong_induction_on generalizing text with
  | _ length induction =>
      intro occurs
      cases text with
      | nil =>
          rw [replaceLoop] at occurs
          exact shown (List.infix_nil.mp occurs)
      | cons character rest =>
          rw [List.length_cons] at size
          rw [replaceLoop] at occurs
          split at occurs
          · rw [replaceLoop_skip] at occurs
            have smaller : (rest.drop (pattern.length - 1)).length < length := by
              rw [List.length_drop]
              omega
            exact induction _ smaller _ rfl (infix_of_infix_append shown apart occurs)
          · next elsewhere =>
              rcases List.infix_cons_iff.mp occurs with starts | inRest
              · apply elsewhere
                rw [List.isPrefixOf_iff_prefix]
                rcases List.prefix_cons_iff.mp starts with lacking | ⟨more, same, onward⟩
                · exact absurd lacking shown
                · rw [same]
                  apply List.cons_prefix_cons.mpr
                  refine ⟨rfl, prefix_of_prefix_replaceLoop marked ?_ onward⟩
                  intro other inside member
                  apply apart other inside
                  rw [same]
                  exact List.mem_cons_of_mem character member
              · exact induction rest.length (by omega) rest rfl inRest

theorem not_infix_replace (shown : pattern ≠ []) (marked : replacement ≠ [])
    (apart : ∀ character ∈ replacement, character ∉ pattern) (text : List Char) :
    ¬pattern <:+: replace pattern replacement text := by
  rw [replace, if_neg shown]
  exact not_infix_replaceLoop shown marked apart text

variable {separator : Char}

theorem isPrefixOf_separated (absent : separator ∉ pattern) (left right : List Char) :
    pattern.isPrefixOf (left ++ separator :: right) = pattern.isPrefixOf left := by
  rw [Bool.eq_iff_iff, List.isPrefixOf_iff_prefix, List.isPrefixOf_iff_prefix]
  constructor
  · intro starts
    rcases List.prefix_or_prefix_of_prefix starts (List.prefix_append left _) with
      inLeft | ⟨more, rfl⟩
    · exact inLeft
    · rcases List.prefix_cons_iff.mp ((List.prefix_append_right_inj left).mp starts) with
        rfl | ⟨rest, rfl, -⟩
      · rw [List.append_nil]
      · exact absurd (List.mem_append_right left List.mem_cons_self) absent
  · intro starts
    exact starts.trans (List.prefix_append left _)

theorem replaceLoop_separated (absent : separator ∉ pattern) (short : skip ≤ left.length)
    (right : List Char) :
    replaceLoop pattern replacement skip (left ++ separator :: right) =
      replaceLoop pattern replacement skip left ++
        replaceLoop pattern replacement 0 (separator :: right) := by
  induction left generalizing skip with
  | nil =>
      rw [List.length_nil, Nat.le_zero] at short
      rw [short, List.nil_append, replaceLoop, List.nil_append]
  | cons character left induction =>
      rw [List.length_cons] at short
      cases skip with
      | succ skip => exact induction (by omega)
      | zero =>
          have begins := isPrefixOf_separated absent (character :: left) right
          rw [List.cons_append] at begins
          rw [List.cons_append, replaceLoop, begins, replaceLoop]
          split
          · next starts =>
              have fits := (List.isPrefixOf_iff_prefix.mp starts).length_le
              rw [List.length_cons] at fits
              rw [induction (by omega), List.append_assoc]
          · rw [induction (Nat.zero_le _), List.cons_append]

theorem replace_separated (absent : separator ∉ pattern) (left right : List Char) :
    replace pattern replacement (left ++ separator :: right) =
      replace pattern replacement left ++ separator :: replace pattern replacement right := by
  rw [replace, replace, replace]
  split
  · rw [List.flatMap_append, List.flatMap_cons, List.append_assoc, List.cons_append]
  · next shown =>
      rw [replaceLoop_separated absent (Nat.zero_le _)]
      have kept : pattern.isPrefixOf (separator :: right) = false := by
        have begins := isPrefixOf_separated absent [] right
        rw [List.nil_append] at begins
        rw [begins]
        cases pattern with
        | nil => exact absurd rfl shown
        | cons _ _ => rfl
      congr 1
      rw [replaceLoop, kept, if_neg Bool.false_ne_true]

end Text
