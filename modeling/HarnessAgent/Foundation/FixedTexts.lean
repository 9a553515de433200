import HarnessAgent.Foundation.Utf8

/-! # Patterns around fixed texts

A message has texts of others between its own fixed ones. A pattern that is not in a
fixed text and does not reach across one of its ends is in the message exactly if it is
in one of the texts of others.
-/

namespace Text

universe u

section Lists

variable {α : Type u} {pattern fixed : List α}

def Meet (left right : List α) : Prop :=
  left <+: right ∨ right <+: left

/-- A fixed text that a message begins with: no occurrence of the pattern begins in it. -/
def Leads (pattern fixed : List α) : Prop :=
  ∀ rest, rest <:+ fixed → rest ≠ [] → ¬Meet pattern rest

/-- A fixed text that a message ends with: no occurrence of the pattern ends in it. -/
def Closes (pattern fixed : List α) : Prop :=
  ¬pattern <:+: fixed ∧ ∀ rest, rest <:+ pattern.tail → rest ≠ [] → ¬rest <+: fixed

/-- A fixed text between two others: no occurrence of the pattern has a part of it. -/
def Divides (pattern fixed : List α) : Prop :=
  Leads pattern fixed ∧ ∀ rest, rest <:+ pattern.tail → rest ≠ [] → ¬Meet rest fixed

theorem all_tails_iff [DecidablePred property] (values : List α) :
    (values.tails.all fun rest => rest.isEmpty || decide (property rest)) = true ↔
      ∀ rest, rest <:+ values → rest ≠ [] → property rest := by
  rw [List.all_eq_true]
  apply forall_congr'
  intro rest
  rw [List.mem_tails, Bool.or_eq_true, List.isEmpty_iff, decide_eq_true_eq, or_iff_not_imp_left]

section Tests

variable [DecidableEq α]

instance (left right : List α) : Decidable (Meet left right) :=
  decidable_of_iff ((left.isPrefixOf right || right.isPrefixOf left) = true) (by
    rw [Bool.or_eq_true, List.isPrefixOf_iff_prefix, List.isPrefixOf_iff_prefix]
    rfl)

instance (pattern fixed : List α) : Decidable (Leads pattern fixed) :=
  decidable_of_iff _ (all_tails_iff fixed)

instance (pattern fixed : List α) : Decidable (Closes pattern fixed) :=
  decidable_of_iff (¬pattern <:+: fixed ∧ _) (and_congr_right fun _ => all_tails_iff pattern.tail)

instance (pattern fixed : List α) : Decidable (Divides pattern fixed) :=
  decidable_of_iff (Leads pattern fixed ∧ _) (and_congr_right fun _ => all_tails_iff pattern.tail)

end Tests

/-- The end of an occurrence that begins before a fixed text. -/
theorem suffix_tail {after : List α} (shown : before ≠ []) : after <:+ (before ++ after).tail := by
  cases before with
  | nil => exact absurd rfl shown
  | cons value before => exact List.suffix_append before after

theorem infix_lead_iff (leads : Leads pattern fixed) (text : List α) :
    pattern <:+: fixed ++ text ↔ pattern <:+: text := by
  constructor
  · intro occurrence
    rcases List.infix_append_iff.mp occurrence with
      inFixed | inText | ⟨before, after, rfl, ends, starts⟩
    · rcases List.infix_iff_prefix_suffix.mp inFixed with ⟨rest, begins, ends⟩
      by_cases empty : rest = []
      · rw [empty] at begins
        rw [List.prefix_nil.mp begins]
        exact List.nil_infix
      · exact absurd (.inl begins) (leads rest ends empty)
    · exact inText
    · by_cases empty : before = []
      · rw [empty, List.nil_append]
        exact starts.isInfix
      · exact absurd (.inr (List.prefix_append before after)) (leads before ends empty)
  · exact List.infix_append_of_infix_right

theorem infix_close_iff (closes : Closes pattern fixed) (text : List α) :
    pattern <:+: text ++ fixed ↔ pattern <:+: text := by
  constructor
  · intro occurrence
    rcases List.infix_append_iff.mp occurrence with
      inText | inFixed | ⟨before, after, rfl, ends, starts⟩
    · exact inText
    · exact absurd inFixed closes.1
    · by_cases whole : after = []
      · rw [whole, List.append_nil]
        exact ends.isInfix
      · by_cases empty : before = []
        · rw [empty, List.nil_append] at closes
          exact absurd starts.isInfix closes.1
        · exact absurd starts (closes.2 after (suffix_tail empty) whole)
  · exact List.infix_append_of_infix_left

theorem infix_divided_iff (divides : Divides pattern fixed) (left right : List α) :
    pattern <:+: left ++ fixed ++ right ↔ pattern <:+: left ∨ pattern <:+: right := by
  rw [List.append_assoc]
  constructor
  · intro occurrence
    rcases List.infix_append_iff.mp occurrence with
      inLeft | inRest | ⟨before, after, rfl, ends, starts⟩
    · exact .inl inLeft
    · exact .inr ((infix_lead_iff divides.1 right).mp inRest)
    · by_cases whole : after = []
      · rw [whole, List.append_nil]
        exact .inl ends.isInfix
      · by_cases empty : before = []
        · rw [empty, List.nil_append] at divides ⊢
          exact .inr ((infix_lead_iff divides.1 right).mp starts.isInfix)
        · -- What runs out of the left text meets the fixed one.
          have meets : Meet after fixed :=
            List.prefix_or_prefix_of_prefix starts (List.prefix_append fixed right)
          exact absurd meets (divides.2 after (suffix_tail empty) whole)
  · rintro (inLeft | inRight)
    · exact List.infix_append_of_infix_left inLeft
    · exact List.infix_append_of_infix_right (List.infix_append_of_infix_right inRight)

end Lists

theorem lowercase_append (left right : List Char) :
    lowercase (left ++ right) = lowercase left ++ lowercase right :=
  List.flatMap_append

theorem lowercase_number
    (number : ∀ character ∈ text, character = '-' ∨ isAsciiDigit character = true) :
    lowercase text = text := by
  induction text with
  | nil => rfl
  | cons character rest induction =>
      have low : character.toNat ≤ 0x39 := by
        rcases number character List.mem_cons_self with rfl | digit
        · decide
        · rw [isAsciiDigit, Bool.and_eq_true, decide_eq_true_eq, decide_eq_true_eq] at digit
          exact digit.2
      have notUpper : ¬('A'.val ≤ character.val ∧ character.val ≤ 'Z'.val) := by
        intro upper
        have high := UInt32.le_iff_toNat_le.mp upper.1
        change 65 ≤ character.toNat at high
        omega
      have kept : character.toLower = character := dif_neg notUpper
      have onward := induction fun other member => number other (List.mem_cons_of_mem _ member)
      rw [lowercase] at onward ⊢
      rw [List.flatMap_cons, onward, if_neg (by omega), if_neg (by omega), kept,
        List.singleton_append]

end Text

namespace String

variable {patterns : List String}

theorem mentionsAny_iff (text : String) :
    text.mentionsAny patterns = true ↔
      ∃ pattern ∈ patterns, pattern.toList <:+: Text.lowercase text.toList := by
  rw [mentionsAny, List.any_eq_true]
  simp only [Text.occurs_iff_infix]

variable {fixed : String}

theorem mentionsAny_lead_iff
    (leads : ∀ pattern ∈ patterns, Text.Leads pattern.toList (Text.lowercase fixed.toList))
    (text : String) : (fixed ++ text).mentionsAny patterns = true ↔
      text.mentionsAny patterns = true := by
  rw [mentionsAny_iff, mentionsAny_iff, String.toList_append, Text.lowercase_append]
  apply exists_congr
  intro pattern
  apply and_congr_right
  intro member
  exact Text.infix_lead_iff (leads pattern member) _

theorem mentionsAny_close_iff
    (closes : ∀ pattern ∈ patterns, Text.Closes pattern.toList (Text.lowercase fixed.toList))
    (text : String) : (text ++ fixed).mentionsAny patterns = true ↔
      text.mentionsAny patterns = true := by
  rw [mentionsAny_iff, mentionsAny_iff, String.toList_append, Text.lowercase_append]
  apply exists_congr
  intro pattern
  apply and_congr_right
  intro member
  exact Text.infix_close_iff (closes pattern member) _

theorem mentionsAny_divided_iff
    (divides : ∀ pattern ∈ patterns, Text.Divides pattern.toList (Text.lowercase fixed.toList))
    (left right : String) : (left ++ fixed ++ right).mentionsAny patterns = true ↔
      left.mentionsAny patterns = true ∨ right.mentionsAny patterns = true := by
  rw [mentionsAny_iff, mentionsAny_iff, mentionsAny_iff, String.toList_append,
    String.toList_append, Text.lowercase_append, Text.lowercase_append]
  have each (pattern : String) (member : pattern ∈ patterns) :=
    Text.infix_divided_iff (divides pattern member) (Text.lowercase left.toList)
      (Text.lowercase right.toList)
  constructor
  · rintro ⟨pattern, member, occurs⟩
    rcases (each pattern member).mp occurs with inLeft | inRight
    · exact .inl ⟨pattern, member, inLeft⟩
    · exact .inr ⟨pattern, member, inRight⟩
  · rintro (⟨pattern, member, inLeft⟩ | ⟨pattern, member, inRight⟩)
    · exact ⟨pattern, member, (each pattern member).mpr (.inl inLeft)⟩
    · exact ⟨pattern, member, (each pattern member).mpr (.inr inRight)⟩

end String
