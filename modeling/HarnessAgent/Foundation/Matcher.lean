import HarnessAgent.Foundation.Text
import Mathlib.Data.List.Forall2

/-! # Backtracking matchers

What a regular expression matches at the start of a text, with its groups and the
rest of the text. A matcher that finds a match finds it in the matched part alone.
-/

namespace Text

/-- The groups of a match at the start of a text, and the rest of the text. -/
abbrev Matcher (α : Type) := List Char → Option (α × List Char)

namespace Matcher

variable {α β : Type}

def pure (value : α) : Matcher α := fun text => some (value, text)

def bind (first : Matcher α) (second : α → Matcher β) : Matcher β := fun text =>
  (first text).bind fun found => second found.1 found.2

def folded (same : Char → Char → Bool) : List Char → Matcher Unit
  | [], text => some ((), text)
  | _ :: _, [] => none
  | wanted :: pattern, character :: rest =>
      if character = wanted ∨ same wanted character = true then folded same pattern rest
      else none

def literal (pattern : String) : Matcher Unit :=
  folded (fun _ _ => false) pattern.toList

def bracketed (isStart isPart : Char → Bool) : Matcher (List Char) := fun text =>
  (identifier isStart isPart text).bind fun found =>
    match found.2 with
    | '>' :: rest => some (found.1, rest)
    | _ => none

def afterSpaces (matcher : Matcher α) : Matcher α
  | [] => matcher []
  | character :: rest =>
      if isWhitespace character then (afterSpaces matcher rest).or (matcher (character :: rest))
      else matcher (character :: rest)

def anywhere (matcher : Matcher α) : Matcher α
  | [] => matcher []
  | character :: rest => (matcher (character :: rest)).or (anywhere matcher rest)

def Exact (matcher : Matcher α) : Prop :=
  ∀ text value rest, matcher text = some (value, rest) ↔
    ∃ matched, text = matched ++ rest ∧ matcher matched = some (value, [])

structure Stable (matcher : Matcher α) : Prop where
  truncates : ∀ {text value rest}, matcher text = some (value, rest) →
    ∃ matched, text = matched ++ rest ∧ matcher matched = some (value, [])
  grows : ∀ {text}, (matcher text).isSome = true → ∀ more,
    (matcher (text ++ more)).isSome = true

variable {matcher : Matcher α} {rest text : List Char}

theorem Exact.extends (exactly : Exact matcher) (found : matcher text = some (value, rest))
    (more : List Char) : matcher (text ++ more) = some (value, rest ++ more) := by
  rcases (exactly text value rest).mp found with ⟨matched, split, alone⟩
  apply (exactly _ _ _).mpr
  exact ⟨matched, by rw [split, List.append_assoc], alone⟩

theorem Exact.stable (exactly : Exact matcher) : Stable matcher where
  truncates found := (exactly _ _ _).mp found
  grows present more := by
    rcases Option.isSome_iff_exists.mp present with ⟨⟨value, rest⟩, found⟩
    rw [exactly.extends found more]
    rfl

theorem exact_pure (value : α) : Exact (pure value) := by
  intro text other rest
  constructor
  · intro found
    cases found
    exact ⟨[], rfl, rfl⟩
  · intro split
    rcases split with ⟨matched, rfl, alone⟩
    cases alone
    rfl

theorem Exact.bind_stable (exactly : Exact matcher) {second : α → Matcher β}
    (stable : ∀ value, Stable (second value)) : Stable (Matcher.bind matcher second) where
  truncates found := by
    rcases Option.bind_eq_some_iff.mp found with ⟨⟨group, middle⟩, first, later⟩
    rcases (exactly _ _ _).mp first with ⟨before, rfl, alone⟩
    rcases (stable group).truncates later with ⟨after, rfl, aloneAfter⟩
    refine ⟨before ++ after, (List.append_assoc _ _ _).symm, ?_⟩
    have whole := exactly.extends alone after
    rw [Matcher.bind, whole]
    exact aloneAfter
  grows present more := by
    rcases Option.isSome_iff_exists.mp present with ⟨found, matched⟩
    rcases Option.bind_eq_some_iff.mp matched with ⟨⟨group, middle⟩, first, later⟩
    rw [Matcher.bind, exactly.extends first more]
    apply (stable group).grows
    rw [later]
    rfl

theorem exact_folded (same : Char → Char → Bool) (pattern : List Char) :
    Exact (folded same pattern) := by
  induction pattern with
  | nil =>
      intro text value rest
      constructor
      · intro found
        cases found
        exact ⟨[], rfl, rfl⟩
      · intro split
        rcases split with ⟨matched, rfl, alone⟩
        cases alone
        rfl
  | cons wanted pattern induction =>
      intro text value rest
      cases text with
      | nil =>
          constructor
          · intro found
            cases found
          · intro split
            rcases split with ⟨matched, split, alone⟩
            rw [(List.append_eq_nil_iff.mp split.symm).1] at alone
            cases alone
      | cons character text =>
          constructor
          · intro found
            rw [folded] at found
            split at found
            next accepted =>
              rcases (induction _ _ _).mp found with ⟨matched, rfl, alone⟩
              refine ⟨character :: matched, rfl, ?_⟩
              rw [folded, if_pos accepted, alone]
            next => cases found
          · intro split
            rcases split with ⟨matched, split, alone⟩
            cases matched with
            | nil => cases alone
            | cons first matched =>
                cases split
                rw [folded] at alone ⊢
                split at alone
                next accepted =>
                  rw [if_pos accepted]
                  exact (induction _ _ _).mpr ⟨matched, rfl, alone⟩
                next => cases alone

theorem exact_literal (pattern : String) : Exact (literal pattern) :=
  exact_folded _ _

theorem bracketed_eq_some {isStart isPart : Char → Bool} {name : List Char} :
    bracketed isStart isPart text = some (name, rest) ↔
      ∃ first parts, name = first :: parts ∧ isStart first = true ∧
        (∀ character ∈ parts, isPart character = true) ∧ isPart '>' = false ∧
        text = name ++ '>' :: rest := by
  constructor
  · intro found
    rcases Option.bind_eq_some_iff.mp found with ⟨⟨read, after⟩, identified, closed⟩
    split at closed
    next remaining ends =>
      cases closed
      cases text with
      | nil => cases identified
      | cons first tail =>
          rw [identifier] at identified
          split at identified
          next starts =>
            cases identified
            have stops : tail.dropWhile isPart = '>' :: rest := ends
            refine ⟨first, tail.takeWhile isPart, rfl, starts,
              fun character member => List.mem_takeWhile_imp member, ?_, ?_⟩
            · have head := List.head?_dropWhile_not isPart tail
              rw [stops] at head
              simpa using head
            · rw [← stops, List.cons_append, List.takeWhile_append_dropWhile]
          next => cases identified
    next => cases closed
  · intro shape
    rcases shape with ⟨first, parts, rfl, starts, all, stops, rfl⟩
    rw [bracketed, List.cons_append, identifier, if_pos starts,
      List.takeWhile_append_of_pos all, List.dropWhile_append_of_pos all]
    simp [stops]

theorem exact_bracketed (isStart isPart : Char → Bool) : Exact (bracketed isStart isPart) := by
  intro text name rest
  constructor
  · intro found
    rcases bracketed_eq_some.mp found with ⟨first, parts, shape, starts, all, stops, rfl⟩
    refine ⟨name ++ ['>'], by simp, bracketed_eq_some.mpr ?_⟩
    exact ⟨first, parts, shape, starts, all, stops, rfl⟩
  · intro split
    rcases split with ⟨matched, rfl, alone⟩
    rcases bracketed_eq_some.mp alone with ⟨first, parts, shape, starts, all, stops, rfl⟩
    apply bracketed_eq_some.mpr
    exact ⟨first, parts, shape, starts, all, stops, by simp⟩

theorem Stable.afterSpaces (stable : Stable matcher) : Stable (afterSpaces matcher) := by
  have grows : ∀ {text}, (Matcher.afterSpaces matcher text).isSome = true → ∀ more,
      (Matcher.afterSpaces matcher (text ++ more)).isSome = true := by
    intro text present more
    induction text with
    | nil =>
        have found := stable.grows present more
        rw [List.nil_append] at found ⊢
        cases more with
        | nil => exact found
        | cons character more =>
            rw [Matcher.afterSpaces]
            split
            · rw [Option.isSome_or, found, Bool.or_true]
            · exact found
    | cons character rest induction =>
        rw [Matcher.afterSpaces] at present
        rw [List.cons_append, Matcher.afterSpaces]
        split
        next space =>
          rw [if_pos space, Option.isSome_or, Bool.or_eq_true_iff] at present
          rw [Option.isSome_or, Bool.or_eq_true_iff]
          rcases present with later | here
          · exact .inl (induction later)
          · exact .inr (stable.grows here more)
        next visible =>
          rw [if_neg visible] at present
          exact stable.grows present more
  refine ⟨?_, grows⟩
  intro text value rest found
  induction text with
  | nil =>
      rcases stable.truncates found with ⟨matched, split, alone⟩
      cases (List.append_eq_nil_iff.mp split.symm).1
      exact ⟨[], split, alone⟩
  | cons character tail induction =>
      have here : matcher (character :: tail) = some (value, rest) →
          (isWhitespace character = true → Matcher.afterSpaces matcher tail = none) →
          ∃ matched, character :: tail = matched ++ rest ∧
            Matcher.afterSpaces matcher matched = some (value, []) := by
        intro direct notLater
        rcases stable.truncates direct with ⟨matched, split, alone⟩
        refine ⟨matched, split, ?_⟩
        cases matched with
        | nil => exact alone
        | cons first inner =>
            rw [List.cons_append] at split
            rcases List.cons_eq_cons.mp split with ⟨rfl, rfl⟩
            rw [Matcher.afterSpaces]
            split
            next space =>
              cases later : Matcher.afterSpaces matcher inner with
              | none => exact alone
              | some other =>
                  have present := grows (Option.isSome_iff_exists.mpr ⟨other, later⟩) rest
                  rw [notLater space] at present
                  cases present
            next => exact alone
      rw [Matcher.afterSpaces] at found
      split at found
      next space =>
        cases later : Matcher.afterSpaces matcher tail with
        | none =>
            rw [later, Option.none_or] at found
            exact here found fun _ => later
        | some other =>
            rw [later, Option.some_or] at found
            rw [found] at later
            rcases induction later with ⟨matched, rfl, alone⟩
            refine ⟨character :: matched, rfl, ?_⟩
            rw [Matcher.afterSpaces, if_pos space, alone, Option.some_or]
      next visible => exact here found fun space => absurd space visible

theorem afterSpaces_eq_none
    (nowhere : ∀ before rest, text = before ++ rest → Blank before → matcher rest = none) :
    afterSpaces matcher text = none := by
  induction text with
  | nil => exact nowhere [] [] rfl (by simp [Blank])
  | cons character rest induction =>
      have here := nowhere [] (character :: rest) rfl (by simp [Blank])
      rw [afterSpaces]
      split
      · next space =>
          rw [here, Option.or_none]
          apply induction
          intro before later split blank
          apply nowhere (character :: before) later (by rw [split]; rfl)
          intro other member
          rcases List.mem_cons.mp member with rfl | inside
          · exact space
          · exact blank other inside
      · exact here

theorem afterSpaces_of_alone (here : matcher text = some found)
    (alone : ∀ before rest, before ≠ [] → text = before ++ rest → Blank before →
      matcher rest = none) : afterSpaces matcher text = some found := by
  cases text with
  | nil => exact here
  | cons character rest =>
      rw [afterSpaces]
      split
      · next space =>
          have later : afterSpaces matcher rest = none := by
            apply afterSpaces_eq_none
            intro before more split blank
            apply alone (character :: before) more (List.cons_ne_nil _ _) (by rw [split]; rfl)
            intro other member
            rcases List.mem_cons.mp member with rfl | inside
            · exact space
            · exact blank other inside
          rw [later, Option.none_or, here]
      · exact here

theorem folded_self (same : Char → Char → Bool) (pattern rest : List Char) :
    folded same pattern (pattern ++ rest) = some ((), rest) := by
  induction pattern with
  | nil => rfl
  | cons wanted pattern induction =>
      rw [List.cons_append, folded, if_pos (.inl rfl), induction]

theorem folded_spaces (spaces : ∀ wanted character, same wanted character = true →
      isWhitespace wanted = isWhitespace character)
    (found : folded same pattern text = some ((), rest)) :
    ∃ matched, text = matched ++ rest ∧
      pattern.map isWhitespace = matched.map isWhitespace := by
  induction pattern generalizing text with
  | nil =>
      cases found
      exact ⟨[], rfl, rfl⟩
  | cons wanted pattern induction =>
      cases text with
      | nil => cases found
      | cons character text =>
          rw [folded] at found
          split at found
          · next accepted =>
              rcases induction found with ⟨matched, rfl, maps⟩
              refine ⟨character :: matched, rfl, ?_⟩
              rw [List.map_cons, List.map_cons, maps]
              rcases accepted with equal | folds
              · rw [equal]
              · rw [spaces wanted character folds]
          · cases found

theorem folded_eq_none_of_shifted {same : Char → Char → Bool}
    (spaces : ∀ wanted character, same wanted character = true →
      isWhitespace wanted = isWhitespace character) {pattern before rest more : List Char}
    {visible : Char} (shown : isWhitespace visible = false) (nonempty : before ≠ [])
    (blank : Blank before) (split : pattern ++ visible :: more = before ++ rest) :
    folded same pattern rest = none := by
  cases found : folded same pattern rest with
  | none => rfl
  | some result =>
      rcases result with ⟨_, later⟩
      rcases folded_spaces spaces found with ⟨matched, rfl, maps⟩
      have run := congrArg (fun text => (text.map isWhitespace).takeWhile id) split
      simp only [List.map_append, List.map_cons, shown, maps] at run
      have blanks : before.map isWhitespace = List.replicate before.length true :=
        List.eq_replicate_iff.mpr ⟨List.length_map _, by
          intro space member
          rcases List.mem_map.mp member with ⟨character, inside, rfl⟩
          exact blank character inside⟩
      have lengths := congrArg List.length run
      have size := List.length_pos_iff.mpr nonempty
      have short : ((matched.map isWhitespace) ++ false :: more.map isWhitespace).takeWhile id =
          (matched.map isWhitespace).takeWhile id := by
        rw [List.takeWhile_append]
        split
        · next whole =>
            rw [List.takeWhile_cons_of_neg (by simp), List.append_nil]
            exact ((List.takeWhile_prefix _).eq_of_length whole).symm
        · rfl
      rw [short, blanks, List.takeWhile_append_of_pos (by simp), List.length_append,
        List.length_replicate] at lengths
      have longer : ((matched.map isWhitespace).takeWhile id).length ≤
          ((matched.map isWhitespace ++ later.map isWhitespace).takeWhile id).length := by
        rw [@List.takeWhile_append _ id (matched.map isWhitespace)]
        split
        · next whole =>
            rw [List.length_append]
            omega
        · exact le_refl _
      omega

theorem isSome_anywhere_append (found : (matcher text).isSome = true) (before : List Char) :
    (anywhere matcher (before ++ text)).isSome = true := by
  induction before with
  | nil =>
      cases text with
      | nil => exact found
      | cons character rest =>
          rw [List.nil_append, anywhere, Option.isSome_or, found, Bool.true_or]
  | cons character before induction =>
      rw [List.cons_append, anywhere, Option.isSome_or, induction, Bool.or_true]

theorem Stable.anywhere (stable : Stable matcher) : Stable (anywhere matcher) := by
  refine ⟨?_, ?_⟩
  · intro text value rest found
    induction text with
    | nil =>
        rcases stable.truncates found with ⟨matched, split, alone⟩
        cases (List.append_eq_nil_iff.mp split.symm).1
        exact ⟨[], split, alone⟩
    | cons character tail induction =>
        rw [Matcher.anywhere] at found
        cases here : matcher (character :: tail) with
        | some other =>
            rw [here, Option.some_or] at found
            rw [found] at here
            rcases stable.truncates here with ⟨matched, split, alone⟩
            refine ⟨matched, split, ?_⟩
            cases matched with
            | nil => exact alone
            | cons first inner => rw [Matcher.anywhere, alone, Option.some_or]
        | none =>
            rw [here, Option.none_or] at found
            rcases induction found with ⟨matched, rfl, alone⟩
            refine ⟨character :: matched, rfl, ?_⟩
            have absent : matcher (character :: matched) = none := by
              cases earlier : matcher (character :: matched) with
              | none => rfl
              | some other =>
                  have present :=
                    stable.grows (Option.isSome_iff_exists.mpr ⟨other, earlier⟩) rest
                  rw [List.cons_append, here] at present
                  cases present
            rw [Matcher.anywhere, absent, Option.none_or, alone]
  · intro text present more
    induction text with
    | nil =>
        have found := stable.grows present more
        rw [List.nil_append] at found ⊢
        cases more with
        | nil => exact found
        | cons character more =>
            rw [Matcher.anywhere, Option.isSome_or, found, Bool.true_or]
    | cons character rest induction =>
        rw [Matcher.anywhere, Option.isSome_or, Bool.or_eq_true_iff] at present
        rw [List.cons_append, Matcher.anywhere, Option.isSome_or, Bool.or_eq_true_iff]
        rcases present with here | later
        · exact .inl (stable.grows here more)
        · exact .inr (induction later)

theorem folded_eq_some_iff {same : Char → Char → Bool} {pattern text rest : List Char} :
    folded same pattern text = some ((), rest) ↔
      ∃ spelled, List.Forall₂ (fun wanted character =>
        character = wanted ∨ same wanted character = true) pattern spelled ∧
          text = spelled ++ rest := by
  induction pattern generalizing text with
  | nil =>
      rw [folded]
      constructor
      · intro found
        cases found
        exact ⟨[], .nil, rfl⟩
      · rintro ⟨spelled, alike, rfl⟩
        cases alike
        rfl
  | cons wanted pattern induction =>
      constructor
      · intro found
        cases text with
        | nil => cases found
        | cons character text =>
            rw [folded] at found
            split at found
            · next accepted =>
                rcases induction.mp found with ⟨spelled, alike, rfl⟩
                exact ⟨character :: spelled, .cons accepted alike, rfl⟩
            · cases found
      · rintro ⟨spelled, alike, rfl⟩
        cases alike with
        | cons accepted alike =>
            rw [List.cons_append, folded, if_pos accepted]
            exact induction.mpr ⟨_, alike, rfl⟩

theorem literal_eq_some (found : literal pattern text = some ((), rest)) :
    text = pattern.toList ++ rest := by
  rcases folded_eq_some_iff.mp found with ⟨spelled, alike, rfl⟩
  have same : pattern.toList = spelled := by
    rw [← List.forall₂_eq_eq_eq]
    exact alike.imp fun wanted character given => by simpa [eq_comm] using given
  rw [same]

theorem exists_of_anywhere (found : anywhere matcher text = some (value, rest)) :
    ∃ before after, text = before ++ after ∧ matcher after = some (value, rest) := by
  induction text with
  | nil => exact ⟨[], [], rfl, found⟩
  | cons character text induction =>
      rw [anywhere] at found
      rcases Option.or_eq_some_iff.mp found with here | ⟨-, later⟩
      · exact ⟨[], _, rfl, here⟩
      · rcases induction later with ⟨before, after, rfl, matched⟩
        exact ⟨character :: before, after, rfl, matched⟩

end Matcher

end Text
