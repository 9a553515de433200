import HarnessAgent.Foundation.JsonMerge
import HarnessAgent.Foundation.JsonText
import HarnessAgent.Foundation.Text
import HarnessAgent.Store.Dialect

/-! # Where the two dialects agree

Merging a document and looking for a value in an array are written once for each
dialect. The fragments mean the same only on some documents and values.
-/

namespace HarnessAgent

/-! ## JSON as text -/

namespace JsonText

variable (numberText : Number → List Char)

mutual
/-- The text of a value without any space; numbers are written by the database. -/
def render : Value → List Char
  | .null => "null".toList
  | .bool value => (toString value).toList
  | .number value => numberText value
  | .string text => quoted text
  | .array items => '[' :: renderItems items ++ [']']
  | .object members => '\x7b' :: renderMembers members ++ ['\x7d']

def renderItems : List Value → List Char
  | [] => []
  | item :: rest => render item ++ renderMore rest

def renderMore : List Value → List Char
  | [] => []
  | item :: rest => ',' :: render item ++ renderMore rest

def renderMembers : List (String × Value) → List Char
  | [] => []
  | (key, value) :: rest => quoted key ++ ':' :: render value ++ renderMoreMembers rest

def renderMoreMembers : List (String × Value) → List Char
  | [] => []
  | (key, value) :: rest =>
      ',' :: quoted key ++ ':' :: render value ++ renderMoreMembers rest
end

end JsonText

/-- A path that is one name for both dialects: to SQLite dots, brackets and quotation marks
have a meaning of their own. -/
structure PlainName where
  text : String
  shown : text ≠ ""
  plain : text.toList.all (fun character =>
    Text.isAsciiLetter character || Text.isAsciiDigit character || character == '_') = true

namespace Dialect

open JsonText

variable (numberText : Number → List Char)

/-- The operator `?`: a text is an item of an array, a key of an object, or the value. -/
def jsonbExists (value : String) : Value → Bool
  | .array items => items.any (· = .string value)
  | .object members => (Members.get members value).isSome
  | .string text => text = value
  | _ => false

def jsonExtract : Value → Option (List Char)
  | .null => none
  | .bool value => some (if value then ['1'] else ['0'])
  | .number value => some (numberText value)
  | .string text => some text.toList
  | value => some (render numberText value)

/-- Whether the array under a name in a document contains a value. What is not there
gives no answer. -/
def jsonArrayContains (dialect : Dialect) (column : Value) (path : PlainName) (value : String) :
    Option Bool :=
  match dialect with
  | .postgres => (column.get path.text).map (jsonbExists value)
  | .sqlite =>
      ((column.get path.text).bind (jsonExtract numberText)).map fun text =>
        Text.occurs value.toList text

end Dialect

/-! ## Merging -/

def MergesAgree (stored update : Document) : Prop :=
  ∃ patched concatenated,
    Dialect.sqlite.jsonMerge (some (.object stored.members)) (.object update.members) =
      some patched ∧
    Dialect.postgres.jsonMerge (some (.object stored.members)) (.object update.members) =
      some concatenated ∧
    patched.Same concatenated

theorem mergesAgree_iff (stored update : Document) :
    MergesAgree stored update ↔ Members.Replace stored.members update.members := by
  have patch : (Value.object stored.members).mergePatch (.object update.members) =
      .object (Members.mergePatch stored.members update.members) := by
    rw [Value.mergePatch]
    rfl
  rw [← Members.same_mergePatch_concat_iff update.distinct, ← patch]
  constructor
  · rintro ⟨patched, concatenated, left, right, same⟩
    cases left
    cases right
    exact same
  · intro same
    exact ⟨_, _, rfl, rfl, same⟩

/-! ## Looking for a value -/

open JsonText

def arrayText (items : List String) : List Char :=
  render (fun _ => []) (.array (items.map .string))

def Unescaped (value : String) : Prop :=
  ∀ character ∈ value.toList, escaped character = [character]

/-- The texts without a quotation mark that are no part of an item. -/
def arrayMarks : List String → List (List Char)
  | [] => [[], ['['], [']'], ['[', ']']]
  | [_] => [[], ['['], [']']]
  | _ => [[], ['['], [']'], [',']]

/-- The text of an array shows a value inside of an item, as one of its own marks, or
across the quotation marks of its items. -/
def Shown (items : List String) (value : String) : Prop :=
  (∃ item ∈ items, value.toList <:+: escapedText item) ∨
  value.toList ∈ arrayMarks items ∨
  ('"' ∈ value.toList ∧ value.toList <:+: arrayText items)

def moreText (items : List String) : List Char :=
  (items.flatMap fun item => ',' :: quoted item) ++ [']']

variable {items : List String}

theorem unquoted_of_mem_arrayMarks (mark : value ∈ arrayMarks items) : '"' ∉ value := by
  intro quotes
  revert mark
  unfold arrayMarks
  split <;>
  · simp only [List.mem_cons, List.not_mem_nil, or_false]
    rintro (rfl | rfl | rfl | rfl) <;> simp at quotes

theorem renderMore_strings (numberText : Number → List Char) (items : List String) :
    renderMore numberText (items.map .string) = items.flatMap fun item => ',' :: quoted item := by
  induction items with
  | nil => rfl
  | cons item rest induction =>
      rw [List.map_cons, renderMore, render, induction, List.flatMap_cons, List.cons_append]

theorem render_strings (numberText : Number → List Char) (items : List String) :
    render numberText (.array (items.map .string)) = arrayText items := by
  cases items with
  | nil => rfl
  | cons item rest =>
      simp only [arrayText, List.map_cons, render, renderItems, renderMore_strings]

theorem arrayText_cons (item : String) (rest : List String) :
    arrayText (item :: rest) = ['['] ++ '"' :: (escapedText item ++ '"' :: moreText rest) := by
  simp only [arrayText, List.map_cons, render, renderItems, renderMore_strings, quoted, moreText,
    List.cons_append, List.append_assoc, List.nil_append]

theorem moreText_cons (item : String) (rest : List String) :
    moreText (item :: rest) = [','] ++ '"' :: (escapedText item ++ '"' :: moreText rest) := by
  simp only [moreText, List.flatMap_cons, quoted, List.cons_append, List.append_assoc,
    List.nil_append]

section Unquoted

variable {value : List Char} (unquoted : '"' ∉ value)

include unquoted

theorem infix_item_iff (mark : Char) (item : String) (more : List Char) :
    value <:+: [mark] ++ '"' :: (escapedText item ++ '"' :: more) ↔
      (value = [] ∨ value = [mark]) ∨ value <:+: escapedText item ∨ value <:+: more := by
  rw [Text.infix_separated_iff unquoted, Text.infix_separated_iff unquoted,
    List.infix_singleton_iff]

theorem infix_moreText_iff (items : List String) :
    value <:+: moreText items ↔
      value = [] ∨ value = [']'] ∨ (items ≠ [] ∧ value = [',']) ∨
        ∃ item ∈ items, value <:+: escapedText item := by
  induction items with
  | nil =>
      rw [moreText, List.flatMap_nil, List.nil_append, List.infix_singleton_iff]
      simp
  | cons item rest induction =>
      rw [moreText_cons, infix_item_iff unquoted, induction, List.exists_mem_cons_iff]
      grind

theorem infix_arrayText_iff (items : List String) :
    value <:+: arrayText items ↔
      (∃ item ∈ items, value <:+: escapedText item) ∨ value ∈ arrayMarks items := by
  cases items with
  | nil =>
      have text : arrayText [] = ['[', ']'] := rfl
      rw [text, List.infix_cons_iff, List.infix_singleton_iff]
      simp only [List.prefix_cons_iff, List.prefix_nil, arrayMarks]
      grind
  | cons item rest =>
      rw [arrayText_cons, infix_item_iff unquoted, infix_moreText_iff unquoted,
        List.exists_mem_cons_iff]
      cases rest with
      | nil =>
          simp only [arrayMarks]
          grind
      | cons second others =>
          simp only [arrayMarks]
          grind

end Unquoted

theorem infix_arrayText_of_mem (member : item ∈ items) : escapedText item <:+: arrayText items := by
  cases items with
  | nil => cases member
  | cons first rest =>
      rw [arrayText_cons]
      rcases List.mem_cons.mp member with rfl | later
      · exact ⟨['[', '"'], '"' :: moreText rest, by simp⟩
      · obtain ⟨before, after, rfl⟩ := List.append_of_mem later
        refine ⟨'[' :: quoted first ++ (before.flatMap fun other => ',' :: quoted other) ++
          [',', '"'], '"' :: moreText after, ?_⟩
        simp [moreText, quoted]

theorem shown_iff (items : List String) (value : String) :
    Shown items value ↔ value.toList <:+: arrayText items := by
  by_cases quotes : '"' ∈ value.toList
  · constructor
    · rintro (⟨item, member, inside⟩ | mark | ⟨_, across⟩)
      · exact inside.trans (infix_arrayText_of_mem member)
      · exact absurd quotes (unquoted_of_mem_arrayMarks mark)
      · exact across
    · intro across
      exact .inr (.inr ⟨quotes, across⟩)
  · rw [infix_arrayText_iff quotes, Shown]
    simp only [quotes, false_and, or_false]

theorem shown_of_mem {value : String} (member : value ∈ items) (unescaped : Unescaped value) :
    Shown items value := by
  have same : escapedText value = value.toList := by
    rw [escapedText, List.flatMap_congr unescaped, List.flatMap_singleton']
  exact .inl ⟨value, member, same ▸ List.infix_rfl⟩

/-- An item is found unless an escaped character hides it, and nothing is found that is
no item. -/
structure FoundAsItem (items : List String) (value : String) : Prop where
  item : value ∈ items → Unescaped value ∨ Shown items value
  other : value ∉ items → ¬ Shown items value

variable {column : Value} {path : PlainName}

theorem postgres_contains (numberText : Number → List Char) {value : String}
    (listed : column.get path.text = some (.array (items.map .string))) :
    Dialect.postgres.jsonArrayContains numberText column path value =
      some (decide (value ∈ items)) := by
  rw [Dialect.jsonArrayContains, listed, Option.map_some, Dialect.jsonbExists]
  congr 1
  rw [Bool.eq_iff_iff]
  simp

theorem sqlite_contains (numberText : Number → List Char) {value : String}
    (listed : column.get path.text = some (.array (items.map .string))) :
    Dialect.sqlite.jsonArrayContains numberText column path value =
      some (Text.occurs value.toList (arrayText items)) := by
  have extracted : Dialect.jsonExtract numberText (.array (items.map .string)) =
      some (arrayText items) := by
    rw [← render_strings numberText]
    rfl
  rw [Dialect.jsonArrayContains, listed, Option.bind_some, extracted, Option.map_some]

def ContainsItems (numberText : Number → List Char) (column : Value) (path : PlainName)
    (items : List String) (value : String) : Prop :=
  ∀ dialect : Dialect,
    dialect.jsonArrayContains numberText column path value = some (decide (value ∈ items))

theorem containsItems_iff (numberText : Number → List Char) {value : String}
    (listed : column.get path.text = some (.array (items.map .string))) :
    ContainsItems numberText column path items value ↔ FoundAsItem items value := by
  have sqlite : Dialect.sqlite.jsonArrayContains numberText column path value =
      some (decide (value ∈ items)) ↔ (Shown items value ↔ value ∈ items) := by
    rw [sqlite_contains numberText listed, Option.some.injEq, Bool.eq_iff_iff,
      Text.occurs_iff_infix, decide_eq_true_eq, shown_iff]
  constructor
  · intro agree
    have shown := sqlite.mp (agree .sqlite)
    exact ⟨fun member => .inr (shown.mpr member), fun absent found => absent (shown.mp found)⟩
  · intro found dialect
    cases dialect with
    | postgres => exact postgres_contains numberText listed
    | sqlite =>
        rw [sqlite]
        by_cases member : value ∈ items
        · apply iff_of_true _ member
          rcases found.item member with unescaped | shown
          · exact shown_of_mem member unescaped
          · exact shown
        · exact iff_of_false (found.other member) member

/-- The dialects merge to the same document exactly if no member of the update is null
and each replaces what is stored under its key, at every depth; they find the same
items exactly if the text of the array shows the value as an item or not at all. -/
theorem dialects_agree_iff (numberText : Number → List Char) :
    (∀ stored update : Document,
      MergesAgree stored update ↔ Members.Replace stored.members update.members) ∧
    ∀ (column : Value) (path : PlainName) (value : String) (items : List String),
      column.get path.text = some (.array (items.map .string)) →
      (ContainsItems numberText column path items value ↔ FoundAsItem items value) :=
  ⟨mergesAgree_iff, fun _ _ _ _ listed => containsItems_iff numberText listed⟩

def relatedIssues : PlainName where
  text := "related_issues"
  shown := by decide
  plain := by decide

theorem dialects_agree_iff_issue :
    ContainsItems (fun _ => []) (.object [("related_issues", .array [.string "12"])])
      relatedIssues ["12"] "12" := by
  have found : FoundAsItem ["12"] "12" := by
    have member : "12" ∈ ["12"] := List.mem_cons_self
    have unescaped : Unescaped "12" := Text.forall_of_all (by decide)
    exact ⟨fun _ => .inl unescaped, fun absent => absurd member absent⟩
  exact ((dialects_agree_iff fun _ => []).2 _ _ _ _ rfl).mpr found

/-- A nested object, a null, a part of an item and an escaped item tell the dialects
apart. -/
theorem dialects_disagree :
    (∃ stored update : Document,
      stored.members = [("usage", .object [("input", .bool true)])] ∧
      update.members = [("usage", .object [("output", .bool true)])] ∧
      ¬ MergesAgree stored update) ∧
    (∃ stored update : Document,
      stored.members = [] ∧ update.members = [("error", .null)] ∧ ¬ MergesAgree stored update) ∧
    ¬ ContainsItems (fun _ => []) (.object [("related_issues", .array [.string "123"])])
      relatedIssues ["123"] "12" ∧
    ¬ ContainsItems (fun _ => []) (.object [("related_issues", .array [.string "a\\b"])])
      relatedIssues ["a\\b"] "a\\b" := by
  refine ⟨⟨⟨_, ?_⟩, ⟨_, ?_⟩, rfl, rfl, ?_⟩, ⟨⟨_, ?_⟩, ⟨_, ?_⟩, rfl, rfl, ?_⟩, ?_, ?_⟩
  · simp [Value.Distinct, Members.Distinct, Members.keys]
  · simp [Value.Distinct, Members.Distinct, Members.keys]
  · rw [mergesAgree_iff]
    intro replaced
    rw [Members.Replace, Value.Replaces] at replaced
    have lost := replaced.1.2.1 "input" rfl
    cases lost
  · simp [Value.Distinct, Members.Distinct, Members.keys]
  · simp [Value.Distinct, Members.Distinct, Members.keys]
  · rw [mergesAgree_iff]
    intro replaced
    rw [Members.Replace] at replaced
    exact replaced.1.1 rfl
  · intro contains
    have sqlite := contains .sqlite
    revert sqlite
    decide +kernel
  · intro contains
    have sqlite := contains .sqlite
    revert sqlite
    decide +kernel

end HarnessAgent
