import HarnessAgent.Executor.ConditionSyntax
import HarnessAgent.Executor.NumericPrefix
import Mathlib.Data.Nat.Digits.Defs
import Mathlib.Tactic.FieldSimp

/-! # The meaning of conditions

A condition means what its rules derive: a field of an output is read from a table, texts
are compared as texts, and numbers by the doubles that they are read as. The evaluator
gives the one result that the rules derive.
-/

namespace HarnessAgent

namespace ConditionSyntax

open ConditionEvaluator (EvaluationResult Operator isAsciiWhitespace numeral isExponentMark isSign)
open Text TextLanguage

/-! ## Fields -/

def unfenced (text : String) : String :=
  ((Fence.capture text.toList).map String.ofList).getD text

def HasRun (output : NodeOutput) : Prop :=
  output.state ≠ .skipped ∧ output.state ≠ .pending

def Structured (output : NodeOutput) (members : Members) : Prop :=
  output.structuredOutput = some (.object members)

section Fields

variable (serde : SerdeJson)

def Shows (text : String) (members : Members) : Prop :=
  text ≠ "" ∧ serde.fromStr (unfenced text) = some (.object members)

def Gives (output : NodeOutput) (members : Members) : Prop :=
  Structured output members ∨
    (∀ others, ¬ Structured output others) ∧ Shows serde output.output members

def written : Value → String
  | .string text => text
  | .bool true => "true"
  | .bool false => "false"
  | value => serde.toString value

/-- What a field of an output is. Declared fields may be empty and no other may be read; a
structured output without declared fields may lack any; a text must show the field. -/
inductive FieldIs (output : NodeOutput) (field : String) :
    Except OutputRefErrorReason String → Prop
  | producerNotRun (waits : ¬ HasRun output) : FieldIs output field (.error .producerNotRun)
  | notInSchema {declared : List String} (ran : HasRun output)
      (declares : output.declaredFields = some declared) (absent : field ∉ declared) :
      FieldIs output field (.error .notInSchema)
  | declared {declared : List String} {members : Members} {value : Value} (ran : HasRun output)
      (declares : output.declaredFields = some declared) (listed : field ∈ declared)
      (gives : Gives serde output members) (entry : members.get field = some value)
      (shown : value ≠ .null) : FieldIs output field (.ok (written serde value))
  | declaredEmpty {declared : List String} (ran : HasRun output)
      (declares : output.declaredFields = some declared) (listed : field ∈ declared)
      (empty : ∀ members value, Gives serde output members → members.get field = some value →
        value = .null) : FieldIs output field (.ok "")
  | structured {members : Members} {value : Value} (ran : HasRun output)
      (undeclared : output.declaredFields = none) (gives : Structured output members)
      (entry : members.get field = some value) : FieldIs output field (.ok (written serde value))
  | structuredEmpty {members : Members} (ran : HasRun output)
      (undeclared : output.declaredFields = none) (gives : Structured output members)
      (absent : members.get field = none) : FieldIs output field (.ok "")
  | parsed {members : Members} {value : Value} (ran : HasRun output)
      (undeclared : output.declaredFields = none)
      (unstructured : ∀ others, ¬ Structured output others)
      (shown : Shows serde output.output members) (entry : members.get field = some value) :
      FieldIs output field (.ok (written serde value))
  | missingKey {members : Members} (ran : HasRun output)
      (undeclared : output.declaredFields = none)
      (unstructured : ∀ others, ¬ Structured output others)
      (shown : Shows serde output.output members) (absent : members.get field = none) :
      FieldIs output field (.error .missingKey)
  | unparseable (ran : HasRun output) (undeclared : output.declaredFields = none)
      (unstructured : ∀ others, ¬ Structured output others)
      (hidden : ∀ members, ¬ Shows serde output.output members) :
      FieldIs output field (.error .unparseable)

end Fields

/-! ## Numbers -/

def decimal (digits : List Char) : Nat :=
  Nat.ofDigits 10 (digits.reverse.map fun digit => digit.toNat - '0'.toNat)

def AllDigits (digits : List Char) : Prop :=
  ∀ digit ∈ digits, isAsciiDigit digit = true

inductive IsPower : List Char → Int → Prop
  | absent : IsPower [] 0
  | unsigned {mark : Char} {digits : List Char} (marks : mark = 'e' ∨ mark = 'E')
      (all : AllDigits digits) : IsPower (mark :: digits) (decimal digits)
  | plus {mark : Char} {digits : List Char} (marks : mark = 'e' ∨ mark = 'E')
      (all : AllDigits digits) : IsPower (mark :: '+' :: digits) (decimal digits)
  | minus {mark : Char} {digits : List Char} (marks : mark = 'e' ∨ mark = 'E')
      (all : AllDigits digits) : IsPower (mark :: '-' :: digits) (-(decimal digits : Int))

inductive Writes : List Char → Rat → Prop
  | whole {whole power : List Char} {scale : Int} (all : AllDigits whole)
      (isPower : IsPower power scale) : Writes (whole ++ power) (decimal whole * 10 ^ scale)
  | pointed {whole fraction power : List Char} {scale : Int} (all : AllDigits whole)
      (behind : AllDigits fraction) (isPower : IsPower power scale) :
      Writes (whole ++ '.' :: (fraction ++ power))
        ((decimal whole + decimal fraction / 10 ^ fraction.length) * 10 ^ scale)

inductive Denotes : List Char → Rat → Prop
  | plain {text : List Char} {magnitude : Rat} (writes : Writes text magnitude)
      (finite : (F64.ofRat magnitude).isFinite = true) :
      Denotes text (F64.ofRat magnitude).value
  | plus {text : List Char} {magnitude : Rat} (writes : Writes text magnitude)
      (finite : (F64.ofRat magnitude).isFinite = true) :
      Denotes ('+' :: text) (F64.ofRat magnitude).value
  | minus {text : List Char} {magnitude : Rat} (writes : Writes text magnitude)
      (finite : (F64.ofRat magnitude).isFinite = true) :
      Denotes ('-' :: text) (-(F64.ofRat magnitude).value)

def IsNumber (text : String) (number : Rat) : Prop :=
  ∃ spaces rest found, text.toList = spaces ++ rest ∧
    (∀ character ∈ spaces, isAsciiWhitespace character = true) ∧
    (∀ character ∈ rest.head?, isAsciiWhitespace character = false) ∧
    IsLongestPrefix numeral rest found ∧ Denotes found number

/-! ## Comparisons -/

def Ordered (order : Rat → Rat → Prop) (actual expected : String) : Prop :=
  ∃ left right, IsNumber actual left ∧ IsNumber expected right ∧ order left right

def Comparable : Operator → String → String → Prop
  | .equal, _, _ => True
  | .notEqual, _, _ => True
  | _, actual, expected => Ordered (fun _ _ => True) actual expected

def Relates : Operator → String → String → Prop
  | .equal, actual, expected => actual = expected
  | .notEqual, actual, expected => actual ≠ expected
  | .less, actual, expected => Ordered (· < ·) actual expected
  | .lessEqual, actual, expected => Ordered (· ≤ ·) actual expected
  | .greater, actual, expected => Ordered (· > ·) actual expected
  | .greaterEqual, actual, expected => Ordered (· ≥ ·) actual expected

/-! ## Numbers that are parsed -/

section Parsing

open ConditionEvaluator

variable {digits power : List Char} {scale : Int}

theorem digitsValue_eq_decimal (digits : List Char) : digitsValue digits = decimal digits := by
  induction digits using List.reverseRecOn with
  | nil => rfl
  | append_singleton digits digit induction =>
      rw [digitsValue, List.foldl_append, ← digitsValue, induction, decimal, decimal,
        List.reverse_append, List.reverse_singleton, List.singleton_append, List.map_cons,
        Nat.ofDigits_cons, List.foldl_cons, List.foldl_nil, Nat.add_comm, Nat.mul_comm]
      rfl

theorem decimal_append (front behind : List Char) :
    decimal (front ++ behind) = decimal front * 10 ^ behind.length + decimal behind := by
  rw [decimal, List.reverse_append, List.map_append, Nat.ofDigits_append, List.length_map,
    List.length_reverse, Nat.add_comm, Nat.mul_comm]
  rfl

theorem takeSign_of_digits (all : AllDigits digits) : takeSign digits = ([], digits) := by
  apply takeSign_of_mem_sign (mem_optional.mpr (.inl rfl))
  intro character head
  exact isSign_of_isAsciiDigit (all character (List.mem_of_mem_head? head))

theorem IsPower.scale_eq (isPower : IsPower power scale) :
    (if (takeSign (power.drop 1)).1 = ['-'] then
        -(digitsValue (takeSign (power.drop 1)).2 : Int)
      else digitsValue (takeSign (power.drop 1)).2) = scale := by
  cases isPower with
  | absent => rfl
  | unsigned marks all =>
      rw [List.drop_succ_cons, List.drop_zero, takeSign_of_digits all, digitsValue_eq_decimal]
      rfl
  | plus marks all =>
      rw [List.drop_succ_cons, List.drop_zero, takeSign, digitsValue_eq_decimal]
      rfl
  | minus marks all =>
      rw [List.drop_succ_cons, List.drop_zero, takeSign, digitsValue_eq_decimal]
      rfl

theorem IsPower.stops (isPower : IsPower power scale) : StopsMantissa power := by
  have marked : ∀ {mark : Char}, mark = 'e' ∨ mark = 'E' →
      isAsciiDigit mark = false ∧ mark ≠ '.' := by
    rintro mark (rfl | rfl)
    · decide
    · decide
  intro character head
  cases isPower with
  | absent => cases head
  | unsigned marks all =>
      cases head
      exact marked marks
  | plus marks all =>
      cases head
      exact marked marks
  | minus marks all =>
      cases head
      exact marked marks

def unsignedMagnitude (unsigned : List Char) : Rat :=
  let afterWhole := unsigned.dropWhile isAsciiDigit
  let pointed := afterWhole.head? == some '.'
  let fraction := if pointed then (afterWhole.drop 1).takeWhile isAsciiDigit else []
  let afterFraction := if pointed then (afterWhole.drop 1).dropWhile isAsciiDigit else afterWhole
  let exponent := takeSign (afterFraction.drop 1)
  digitsValue (unsigned.takeWhile isAsciiDigit ++ fraction) * (10 : Rat) ^
    ((if exponent.1 = ['-'] then -(digitsValue exponent.2 : Int) else digitsValue exponent.2) -
      fraction.length)

theorem parseDecimal_eq (numeral : List Char) :
    parseDecimal numeral =
      if (takeSign numeral).1 = ['-'] then
        (F64.ofRat (unsignedMagnitude (takeSign numeral).2)).neg
      else F64.ofRat (unsignedMagnitude (takeSign numeral).2) := rfl

variable {text : List Char} {magnitude : Rat}

theorem Writes.unsignedMagnitude_eq (writes : Writes text magnitude) :
    unsignedMagnitude text = magnitude := by
  cases writes with
  | @whole whole power scale all isPower =>
      have pointless : (power.head? == some '.') = false := by
        rw [Bool.eq_false_iff]
        intro pointed
        exact (isPower.stops '.' (beq_iff_eq.mp pointed)).2 rfl
      rw [unsignedMagnitude, List.dropWhile_append_of_pos all, isPower.stops.takeWhile.2,
        pointless, List.takeWhile_append_of_pos all, isPower.stops.takeWhile.1]
      rw [if_neg Bool.false_ne_true, if_neg Bool.false_ne_true, isPower.scale_eq,
        List.append_nil, List.append_nil, digitsValue_eq_decimal]
      simp
  | @pointed whole fraction power scale all behind isPower =>
      have run : ('.' :: (fraction ++ power)).takeWhile isAsciiDigit = [] := rfl
      have left : ('.' :: (fraction ++ power)).dropWhile isAsciiDigit =
          '.' :: (fraction ++ power) := rfl
      rw [unsignedMagnitude, List.dropWhile_append_of_pos all, left,
        List.takeWhile_append_of_pos all, run]
      rw [List.head?_cons, beq_self_eq_true, if_pos rfl, if_pos rfl, List.drop_succ_cons,
        List.drop_zero, List.takeWhile_append_of_pos behind, List.dropWhile_append_of_pos behind,
        isPower.stops.takeWhile.1, isPower.stops.takeWhile.2, isPower.scale_eq, List.append_nil,
        List.append_nil, digitsValue_eq_decimal, decimal_append, zpow_sub₀ (by norm_num),
        zpow_natCast]
      push_cast
      field_simp

theorem Writes.takeSign_eq (writes : Writes text magnitude) : takeSign text = ([], text) := by
  have digit : ∀ {digits : List Char}, AllDigits digits → ∀ character ∈ digits.head?,
      isSign character = false :=
    fun all character head => isSign_of_isAsciiDigit (all character (List.mem_of_mem_head? head))
  have unsigned : ∀ character ∈ text.head?, isSign character = false := by
    intro character head
    cases writes with
    | @whole whole power scale all isPower =>
        cases whole with
        | cons first whole => exact digit all character head
        | nil =>
            cases isPower with
            | absent => cases head
            | unsigned marks _ | plus marks _ | minus marks _ =>
                cases head
                rcases marks with rfl | rfl
                · rfl
                · rfl
    | @pointed whole fraction power scale all behind isPower =>
        cases whole with
        | cons first whole => exact digit all character head
        | nil =>
            cases head
            rfl
  exact takeSign_of_mem_sign (mem_optional.mpr (.inl rfl)) unsigned

theorem exists_writes (isNumeral : text ∈ numeral) :
    ∃ front ∈ sign, ∃ unsigned magnitude, text = front ++ unsigned ∧ Writes unsigned magnitude := by
  rcases Language.mem_mul.mp isNumeral with ⟨front, isFront, unsigned, isUnsigned, rfl⟩
  rcases Language.mem_mul.mp isUnsigned with ⟨mantissa, isMantissa, power, isOptional, rfl⟩
  have raised : ∃ scale, IsPower power scale := by
    rcases mem_optional.mp isOptional with rfl | isExponent
    · exact ⟨_, .absent⟩
    · rcases mem_oneOf_mul.mp isExponent with ⟨mark, later, isMark, isLater, rfl⟩
      rcases Language.mem_mul.mp isLater with ⟨front, isFront, digits, isDigits, rfl⟩
      have all : AllDigits digits := (mem_repeated.mp isDigits).2
      have marks : mark = 'e' ∨ mark = 'E' := by
        simpa [isExponentMark] using isMark
      rcases mem_optional.mp isFront with rfl | single
      · exact ⟨_, .unsigned marks all⟩
      · rcases mem_oneOf.mp single with ⟨character, isSignCharacter, rfl⟩
        rcases Bool.or_eq_true _ _ ▸ isSignCharacter with plus | minus
        · rw [beq_iff_eq.mp plus]
          exact ⟨_, .plus marks all⟩
        · rw [beq_iff_eq.mp minus]
          exact ⟨_, .minus marks all⟩
  rcases raised with ⟨scale, isPower⟩
  refine ⟨front, isFront, ?_⟩
  rcases mem_mantissa_iff.mp isMantissa with
    isWhole | ⟨whole, isWhole, fraction, isFraction, rfl⟩ | ⟨fraction, isFraction, rfl⟩
  · exact ⟨_, _, rfl, .whole (mem_repeated.mp isWhole).2 isPower⟩
  · refine ⟨_, _, by rw [List.append_assoc, List.cons_append],
      .pointed (mem_repeated.mp isWhole).2 (mem_kstar_oneOf.mp isFraction) isPower⟩
  · exact ⟨_, _, rfl, .pointed (List.forall_mem_nil _) (mem_repeated.mp isFraction).2 isPower⟩

variable {number : Rat}

theorem denotes_iff (isNumeral : text ∈ numeral) :
    Denotes text number ↔
      (parseDecimal text).isFinite = true ∧ number = (parseDecimal text).value := by
  have unlike : ['+'] ≠ ['-'] := by decide
  constructor
  · intro denotes
    cases denotes with
    | plain writes finite =>
        rw [parseDecimal_eq, writes.takeSign_eq, if_neg (List.cons_ne_nil _ _).symm,
          writes.unsignedMagnitude_eq]
        exact ⟨finite, rfl⟩
    | plus writes finite =>
        rw [parseDecimal_eq, takeSign, if_neg unlike, writes.unsignedMagnitude_eq]
        exact ⟨finite, rfl⟩
    | minus writes finite =>
        rw [parseDecimal_eq, takeSign, if_pos rfl, writes.unsignedMagnitude_eq, F64.isFinite_neg,
          F64.value_neg]
        exact ⟨finite, rfl⟩
  · rintro ⟨finite, rfl⟩
    rcases exists_writes isNumeral with ⟨front, isFront, unsigned, magnitude, rfl, writes⟩
    rcases mem_optional.mp isFront with rfl | single
    · rw [List.nil_append] at finite ⊢
      rw [parseDecimal_eq, writes.takeSign_eq, if_neg (List.cons_ne_nil _ _).symm,
        writes.unsignedMagnitude_eq] at finite ⊢
      exact .plain writes finite
    · rcases mem_oneOf.mp single with ⟨character, isSignCharacter, rfl⟩
      rcases Bool.or_eq_true _ _ ▸ isSignCharacter with plus | minus
      · rw [beq_iff_eq.mp plus, List.singleton_append] at finite ⊢
        rw [parseDecimal_eq, takeSign, if_neg unlike, writes.unsignedMagnitude_eq] at finite ⊢
        exact .plus writes finite
      · rw [beq_iff_eq.mp minus, List.singleton_append] at finite ⊢
        rw [parseDecimal_eq, takeSign, if_pos rfl, writes.unsignedMagnitude_eq, F64.value_neg]
        rw [parseDecimal_eq, takeSign, if_pos rfl, writes.unsignedMagnitude_eq,
          F64.isFinite_neg] at finite
        exact .minus writes finite

theorem numberText_eq {text : String} {rest : List Char} (split : text.toList = spaces ++ rest)
    (blank : ∀ character ∈ spaces, isAsciiWhitespace character = true)
    (shown : ∀ character ∈ rest.head?, isAsciiWhitespace character = false) :
    numberText text = rest := by
  rw [numberText, split, List.dropWhile_append_of_pos blank]
  cases rest with
  | nil => rfl
  | cons first rest => rw [List.dropWhile_cons_of_neg (by simp [shown first rfl])]

theorem isNumber_iff_numeral {text : String} :
    IsNumber text number ↔
      ∃ found, IsLongestPrefix numeral (numberText text) found ∧ Denotes found number := by
  constructor
  · rintro ⟨spaces, rest, found, split, blank, shown, longest, denotes⟩
    rw [numberText_eq split blank shown]
    exact ⟨found, longest, denotes⟩
  · rintro ⟨found, longest, denotes⟩
    refine ⟨text.toList.takeWhile isAsciiWhitespace, numberText text, found,
      (List.takeWhile_append_dropWhile).symm, fun _ => List.mem_takeWhile_imp, ?_, longest, denotes⟩
    intro character head
    have kept := List.head?_dropWhile_not isAsciiWhitespace text.toList
    rw [← numberText, Option.mem_def.mp head] at kept
    simpa using kept

theorem numericPrefix_of_spellsInfinity {rest : List Char} (spells : SpellsInfinity rest) :
    numericPrefix rest = none := by
  rcases spells with ⟨behind, rfl⟩ | ⟨behind, rfl⟩ | ⟨behind, rfl⟩
  · rfl
  · rfl
  · rfl

theorem isFinite_of_spellsInfinity {text : String} (spells : SpellsInfinity (numberText text)) :
    (parseFloatJs text).isFinite = false := by
  have empty : numberText text ≠ [] := by
    intro empty
    rw [empty] at spells
    rcases spells with found | found | found
    all_goals exact absurd (List.prefix_nil.mp found) (by decide)
  rw [parseFloatJs, ← numberText, if_neg empty]
  split
  · rfl
  · next notPositive =>
      split
      · rfl
      · next notNegative =>
          split
          · rfl
          · next notPlus =>
              exfalso
              rcases spells with found | found | found
              · exact notPositive (List.isPrefixOf_iff_prefix.mpr found)
              · exact notNegative (List.isPrefixOf_iff_prefix.mpr found)
              · exact notPlus (List.isPrefixOf_iff_prefix.mpr found)

theorem isNumber_iff {text : String} :
    IsNumber text number ↔
      (parseFloatJs text).isFinite = true ∧ number = (parseFloatJs text).value := by
  rw [isNumber_iff_numeral]
  by_cases spells : SpellsInfinity (numberText text)
  · rw [isFinite_of_spellsInfinity spells]
    refine iff_of_false ?_ (fun both => Bool.false_ne_true both.1)
    rintro ⟨found, longest, -⟩
    rw [← scans_numericPrefix.eq_some_iff, numericPrefix_of_spellsInfinity spells] at longest
    cases longest
  · rw [parseFloatJs_of_not_spellsInfinity spells]
    cases scanned : numericPrefix (numberText text) with
    | none =>
        refine iff_of_false ?_ (fun both => absurd both.1 (by decide))
        rintro ⟨found, longest, -⟩
        rw [← scans_numericPrefix.eq_some_iff, scanned] at longest
        cases longest
    | some found =>
        have longest := scans_numericPrefix.eq_some_iff.mp scanned
        dsimp only
        rw [← denotes_iff longest.isMember]
        constructor
        · rintro ⟨other, isOther, denotes⟩
          rw [isOther.unique longest] at denotes
          exact denotes
        · exact fun denotes => ⟨found, longest, denotes⟩

theorem ordered_iff {order : Rat → Rat → Prop} {actual expected : String} :
    Ordered order actual expected ↔
      ((parseFloatJs actual).isFinite = true ∧ (parseFloatJs expected).isFinite = true) ∧
        order (parseFloatJs actual).value (parseFloatJs expected).value := by
  constructor
  · rintro ⟨left, right, isLeft, isRight, related⟩
    rcases isNumber_iff.mp isLeft with ⟨finite, rfl⟩
    rcases isNumber_iff.mp isRight with ⟨otherFinite, rfl⟩
    exact ⟨⟨finite, otherFinite⟩, related⟩
  · rintro ⟨⟨finite, otherFinite⟩, related⟩
    exact ⟨_, _, isNumber_iff.mpr ⟨finite, rfl⟩, isNumber_iff.mpr ⟨otherFinite, rfl⟩, related⟩

end Parsing

section Rules

variable (serde : SerdeJson) (nodeOutputs : NodeOutputs)

inductive Reads (nodeId : String) : Option String → Except OutputRefError String → Prop
  | unknown {field : Option String} (absent : nodeOutputs.lookup nodeId = none) :
      Reads nodeId field (.ok "")
  | whole {output : NodeOutput} (found : nodeOutputs.lookup nodeId = some output) :
      Reads nodeId none (.ok output.output)
  | field {output : NodeOutput} {name text : String}
      (found : nodeOutputs.lookup nodeId = some output)
      (isText : FieldIs serde output name (.ok text)) : Reads nodeId (some name) (.ok text)
  | unresolved {output : NodeOutput} {name : String} {reason : OutputRefErrorReason}
      (found : nodeOutputs.lookup nodeId = some output)
      (fails : FieldIs serde output name (.error reason)) :
      Reads nodeId (some name) (.error { nodeId, field := name, reason })

def Target.Names : Target → Option String → Prop
  | .output, named => named = none
  | .field name, named | .shorthand name, named => named = some name
  | .nested _ _, _ => False

inductive Comparison.Means (comparison : Comparison) :
    Except OutputRefError EvaluationResult → Prop
  | nested (meaningless : ∀ field, ¬ comparison.target.Names field) :
      Means comparison (.ok { result := false, parsed := false })
  | unresolved {field : Option String} {error : OutputRefError}
      (names : comparison.target.Names field)
      (reads : Reads serde nodeOutputs comparison.nodeId field (.error error)) :
      Means comparison (.error error)
  | holds {field : Option String} {actual : String} (names : comparison.target.Names field)
      (reads : Reads serde nodeOutputs comparison.nodeId field (.ok actual))
      (relates : Relates comparison.operator actual comparison.literal) :
      Means comparison (.ok { result := true, parsed := true })
  | fails {field : Option String} {actual : String} (names : comparison.target.Names field)
      (reads : Reads serde nodeOutputs comparison.nodeId field (.ok actual))
      (comparable : Comparable comparison.operator actual comparison.literal)
      (differs : ¬ Relates comparison.operator actual comparison.literal) :
      Means comparison (.ok { result := false, parsed := true })
  | incomparable {field : Option String} {actual : String}
      (names : comparison.target.Names field)
      (reads : Reads serde nodeOutputs comparison.nodeId field (.ok actual))
      (incomparable : ¬ Comparable comparison.operator actual comparison.literal) :
      Means comparison (.ok { result := false, parsed := false })

/-- Of some meanings from left to right the first that is another than the neutral one counts. -/
inductive FirstOther {Part Result : Type} (neutral : Result) (Means : Part → Result → Prop) :
    List Part → Result → Prop
  | nil : FirstOther neutral Means [] neutral
  | next {part : Part} {rest : List Part} {result : Result} (means : Means part neutral)
      (later : FirstOther neutral Means rest result) :
      FirstOther neutral Means (part :: rest) result
  | stops {part : Part} {rest : List Part} {result : Result} (means : Means part result)
      (differs : result ≠ neutral) : FirstOther neutral Means (part :: rest) result

def Clause.Means (clause : Clause) : Except OutputRefError EvaluationResult → Prop :=
  FirstOther (.ok { result := true, parsed := true })
    (fun term : Term => term.comparison.Means serde nodeOutputs) (clause.first :: clause.rest)

def Condition.Means (condition : Condition) : Except OutputRefError EvaluationResult → Prop :=
  FirstOther (.ok { result := false, parsed := true })
    (fun clause : Clause => clause.Means serde nodeOutputs) (condition.first :: condition.rest)

end Rules

/-! ## The evaluator -/

section Evaluation

open ConditionEvaluator

variable {serde : SerdeJson} {nodeOutputs : NodeOutputs}

theorem asObject_eq_some_iff {value : Value} {members : Members} :
    value.asObject = some members ↔ value = .object members := by
  cases value <;> simp [Value.asObject]

theorem shows_iff {text : String} {members : Members} :
    Shows serde text members ↔ parseOutputObject serde text = some members := by
  have reads : ∀ candidate : String,
      text ≠ "" ∧ serde.fromStr candidate = some (.object members) ↔
        (if text = "" then none else (serde.fromStr candidate).bind Value.asObject) =
          some members := by
    intro candidate
    by_cases empty : text = ""
    · simp [empty]
    · rw [if_neg empty, Option.bind_eq_some_iff]
      constructor
      · exact fun both => ⟨_, both.2, rfl⟩
      · rintro ⟨value, read, object⟩
        rw [asObject_eq_some_iff.mp object] at read
        exact ⟨empty, read⟩
  rw [Shows, unfenced, parseOutputObject]
  cases Fence.capture text.toList with
  | none => exact reads text
  | some fenced => exact reads (String.ofList fenced)

variable {output : NodeOutput}

theorem structured_iff {members : Members} :
    Structured output members ↔ output.structuredOutput.bind Value.asObject = some members := by
  rw [Structured, Option.bind_eq_some_iff]
  constructor
  · exact fun given => ⟨_, given, rfl⟩
  · rintro ⟨value, given, object⟩
    rw [given, asObject_eq_some_iff.mp object]

theorem unstructured_iff :
    (∀ members, ¬ Structured output members) ↔
      output.structuredOutput.bind Value.asObject = none := by
  rw [Option.eq_none_iff_forall_ne_some]
  exact forall_congr' fun members => not_congr structured_iff

theorem gives_iff {members : Members} :
    Gives serde output members ↔
      (output.structuredOutput.bind Value.asObject).or
        (parseOutputObject serde output.output) = some members := by
  rw [Gives, structured_iff, unstructured_iff, shows_iff, Option.or_eq_some_iff]

def resolutionText (serde : SerdeJson) : FieldResolution → String
  | .empty => ""
  | .value value => written serde value

def fieldText (serde : SerdeJson) (output : NodeOutput) (nodeId field : String) :
    Except OutputRefErrorReason String :=
  match resolveNodeOutputField serde output nodeId field with
  | .error error => .error error.reason
  | .ok resolution => .ok (resolutionText serde resolution)

theorem fieldText_of_hasRun (ran : HasRun output) (nodeId field : String) :
    fieldText serde output nodeId field =
      match resolveSettledField serde output nodeId field with
      | .error error => .error error.reason
      | .ok resolution => .ok (resolutionText serde resolution) := by
  cases output with
  | completed | running | failed => rfl
  | pending => exact absurd rfl ran.2
  | skipped => exact absurd rfl ran.1

theorem fieldText_of_not_hasRun (waits : ¬ HasRun output) (nodeId field : String) :
    fieldText serde output nodeId field = .error .producerNotRun := by
  cases output with
  | completed | running | failed => exact absurd ⟨nofun, nofun⟩ waits
  | pending | skipped => rfl

theorem fieldIs_fieldText (serde : SerdeJson) (output : NodeOutput) (nodeId field : String) :
    FieldIs serde output field (fieldText serde output nodeId field) := by
  by_cases ran : HasRun output
  · rw [fieldText_of_hasRun ran, resolveSettledField]
    cases declares : output.declaredFields with
    | some declared =>
        dsimp only
        by_cases listed : field ∈ declared
        · rw [if_neg (not_not.mpr listed)]
          cases given : (output.structuredOutput.bind Value.asObject).or
              (parseOutputObject serde output.output) with
          | none =>
              refine .declaredEmpty ran declares listed ?_
              intro members value gives
              rw [gives_iff, given] at gives
              cases gives
          | some members =>
              have gives := gives_iff.mpr given
              have same : ∀ others, Gives serde output others → others = members := by
                intro others also
                rw [gives_iff, given] at also
                exact (Option.some.inj also).symm
              dsimp only
              cases entry : members.get field with
              | none =>
                  refine .declaredEmpty ran declares listed ?_
                  intro others value also found
                  rw [same others also, entry] at found
                  cases found
              | some value =>
                  by_cases null : value = .null
                  · subst null
                    refine .declaredEmpty ran declares listed ?_
                    intro others value also found
                    rw [same others also, entry] at found
                    exact (Option.some.inj found).symm
                  · cases value with
                    | null => exact absurd rfl null
                    | bool | number | string | array | object =>
                        exact .declared ran declares listed gives entry null
        · rw [if_pos listed]
          exact .notInSchema ran declares listed
    | none =>
        dsimp only
        cases given : output.structuredOutput.bind Value.asObject with
        | some members =>
            have gives := structured_iff.mpr given
            dsimp only
            cases entry : members.get field with
            | none => exact .structuredEmpty ran declares gives entry
            | some value => exact .structured ran declares gives entry
        | none =>
            have unstructured := unstructured_iff.mpr given
            dsimp only
            cases read : parseOutputObject serde output.output with
            | none =>
                refine .unparseable ran declares unstructured ?_
                intro members shown
                rw [shows_iff, read] at shown
                cases shown
            | some members =>
                have shown := shows_iff.mpr read
                dsimp only
                cases entry : members.get field with
                | none => exact .missingKey ran declares unstructured shown entry
                | some value => exact .parsed ran declares unstructured shown entry
  · rw [fieldText_of_not_hasRun ran]
    exact .producerNotRun ran

/-- No two rows of the table answer for one field. -/
theorem FieldIs.eq_fieldText (fieldIs : FieldIs serde output field result)
    (nodeId : String) : result = fieldText serde output nodeId field := by
  cases fieldIs with
  | producerNotRun waits => rw [fieldText_of_not_hasRun waits]
  | notInSchema ran declares absent =>
      rw [fieldText_of_hasRun ran, resolveSettledField, declares]
      dsimp only
      rw [if_pos absent]
  | @declared declared members value ran declares listed gives entry shown =>
      rw [fieldText_of_hasRun ran, resolveSettledField, declares]
      dsimp only
      rw [if_neg (not_not.mpr listed), gives_iff.mp gives]
      dsimp only
      rw [entry]
      cases value with
      | null => exact absurd rfl shown
      | bool | number | string | array | object => rfl
  | @declaredEmpty declared ran declares listed empty =>
      rw [fieldText_of_hasRun ran, resolveSettledField, declares]
      dsimp only
      rw [if_neg (not_not.mpr listed)]
      cases given : (output.structuredOutput.bind Value.asObject).or
          (parseOutputObject serde output.output) with
      | none => rfl
      | some members =>
          dsimp only
          cases entry : members.get field with
          | none => rfl
          | some value =>
              rw [empty members value (gives_iff.mpr given) entry]
              rfl
  | structured ran undeclared gives entry =>
      rw [fieldText_of_hasRun ran, resolveSettledField, undeclared, structured_iff.mp gives]
      dsimp only
      rw [entry]
      rfl
  | structuredEmpty ran undeclared gives absent =>
      rw [fieldText_of_hasRun ran, resolveSettledField, undeclared, structured_iff.mp gives]
      dsimp only
      rw [absent]
      rfl
  | parsed ran undeclared unstructured shown entry =>
      rw [fieldText_of_hasRun ran, resolveSettledField, undeclared,
        unstructured_iff.mp unstructured, shows_iff.mp shown]
      dsimp only
      rw [entry]
      rfl
  | missingKey ran undeclared unstructured shown absent =>
      rw [fieldText_of_hasRun ran, resolveSettledField, undeclared,
        unstructured_iff.mp unstructured, shows_iff.mp shown]
      dsimp only
      rw [absent]
  | unparseable ran undeclared unstructured hidden =>
      have unread : parseOutputObject serde output.output = none :=
        Option.eq_none_iff_forall_ne_some.mpr fun members read =>
          hidden members (shows_iff.mpr read)
      rw [fieldText_of_hasRun ran, resolveSettledField, undeclared,
        unstructured_iff.mp unstructured, unread]

theorem resolveOutputRef_some {nodeId field : String}
    (found : nodeOutputs.lookup nodeId = some output) :
    resolveOutputRef serde nodeOutputs nodeId (some field) =
      (fieldText serde output nodeId field).mapError fun reason => { nodeId, field, reason } := by
  rw [resolveOutputRef, found]
  dsimp only
  rw [fieldText]
  cases resolved : resolveNodeOutputField serde output nodeId field with
  | ok resolution =>
      rcases resolution with (_ | (_ | _) | _ | _ | _ | _) | _
      all_goals rfl
  | error error =>
      rcases error with ⟨errorNode, errorField, reason⟩
      rcases error_names resolved with ⟨rfl, rfl⟩
      rfl

theorem reads_iff {nodeId : String} {field : Option String} {result : Except OutputRefError String} :
    Reads serde nodeOutputs nodeId field result ↔
      result = resolveOutputRef serde nodeOutputs nodeId field := by
  constructor
  · intro reads
    cases reads with
    | unknown absent => rw [resolveOutputRef, absent]
    | whole found => rw [resolveOutputRef, found]
    | field found isText =>
        rw [resolveOutputRef_some found, ← isText.eq_fieldText nodeId, Except.mapError]
    | unresolved found fails =>
        rw [resolveOutputRef_some found, ← fails.eq_fieldText nodeId, Except.mapError]
  · rintro rfl
    cases found : nodeOutputs.lookup nodeId with
    | none =>
        rw [resolveOutputRef, found]
        exact .unknown found
    | some output =>
        cases field with
        | none =>
            rw [resolveOutputRef, found]
            exact .whole found
        | some name =>
            have row := fieldIs_fieldText serde output nodeId name
            rw [resolveOutputRef_some found]
            cases text : fieldText serde output nodeId name with
            | ok text =>
                rw [text] at row
                exact .field found row
            | error reason =>
                rw [text] at row
                exact .unresolved found row

theorem decided_order {order : Rat → Rat → Prop} [DecidableRel order] {actual expected : String} :
    (if (parseFloatJs actual).isFinite && (parseFloatJs expected).isFinite then
        (⟨decide (order (parseFloatJs actual).value (parseFloatJs expected).value), true⟩ :
          EvaluationResult)
      else unparsed) = parsedTrue ↔ Ordered order actual expected := by
  rw [ordered_iff, ← Bool.and_eq_true_iff]
  split
  · next finite => simp [parsedTrue, finite]
  · next infinite => simp [parsedTrue, unparsed, infinite]

theorem undecided_order {order : Rat → Rat → Prop} [DecidableRel order]
    {actual expected : String} :
    (if (parseFloatJs actual).isFinite && (parseFloatJs expected).isFinite then
        (⟨decide (order (parseFloatJs actual).value (parseFloatJs expected).value), true⟩ :
          EvaluationResult)
      else unparsed) = unparsed ↔ ¬ Ordered (fun _ _ => True) actual expected := by
  rw [ordered_iff, ← Bool.and_eq_true_iff]
  split
  · next finite => simp [unparsed, finite]
  · next infinite => simp [infinite]

theorem compare_eq_parsedTrue_iff {operator : Operator} {actual expected : String} :
    ConditionEvaluator.compare operator actual expected = parsedTrue ↔
      Relates operator actual expected := by
  cases operator with
  | equal => simp [ConditionEvaluator.compare, Relates, parsedTrue]
  | notEqual => simp [ConditionEvaluator.compare, Relates, parsedTrue]
  | less => exact decided_order
  | lessEqual => exact decided_order
  | greater => exact @decided_order (· > ·) _ actual expected
  | greaterEqual => exact @decided_order (· ≥ ·) _ actual expected

theorem compare_eq_unparsed_iff {operator : Operator} {actual expected : String} :
    ConditionEvaluator.compare operator actual expected = unparsed ↔
      ¬ Comparable operator actual expected := by
  cases operator with
  | equal => simp [ConditionEvaluator.compare, Comparable, unparsed]
  | notEqual => simp [ConditionEvaluator.compare, Comparable, unparsed]
  | less => exact @undecided_order (· < ·) _ actual expected
  | lessEqual => exact @undecided_order (· ≤ ·) _ actual expected
  | greater => exact @undecided_order (· > ·) _ actual expected
  | greaterEqual => exact @undecided_order (· ≥ ·) _ actual expected

theorem compare_eq_parsedFalse_iff {operator : Operator} {actual expected : String} :
    ConditionEvaluator.compare operator actual expected = parsedFalse ↔
      Comparable operator actual expected ∧ ¬ Relates operator actual expected := by
  have possible := compare_ne operator actual expected
  rw [← compare_eq_parsedTrue_iff, ← not_iff_not.mpr compare_eq_unparsed_iff |>.trans not_not]
  generalize ConditionEvaluator.compare operator actual expected = compared at possible ⊢
  rcases compared with ⟨_ | _, _ | _⟩
  · simp [parsedFalse, unparsed]
  · simp [parsedFalse, unparsed, parsedTrue]
  · exact absurd rfl possible
  · simp [parsedFalse, parsedTrue]

theorem Comparison.computed_names {comparison : Comparison} {field : Option String}
    (names : comparison.target.Names field) :
    comparison.computed serde nodeOutputs =
      (resolveOutputRef serde nodeOutputs comparison.nodeId field).map fun actual =>
        ConditionEvaluator.compare comparison.operator actual comparison.literal := by
  rw [Comparison.computed]
  cases target : comparison.target with
  | output | field name | shorthand name =>
      rw [target] at names
      cases names
      rfl
  | nested name inner =>
      rw [target] at names
      exact names.elim

theorem Comparison.means_iff (comparison : Comparison)
    (result : Except OutputRefError EvaluationResult) :
    comparison.Means serde nodeOutputs result ↔
      result = comparison.computed serde nodeOutputs := by
  constructor
  · intro means
    cases means with
    | nested meaningless =>
        rw [Comparison.computed]
        cases target : comparison.target with
        | output => exact absurd (by rw [target]; rfl) (meaningless none)
        | field name => exact absurd (by rw [target]; rfl) (meaningless (some name))
        | shorthand name => exact absurd (by rw [target]; rfl) (meaningless (some name))
        | nested name inner => rfl
    | unresolved names reads =>
        rw [Comparison.computed_names names, ← reads_iff.mp reads]
        rfl
    | holds names reads relates =>
        rw [Comparison.computed_names names, ← reads_iff.mp reads]
        exact congrArg Except.ok (compare_eq_parsedTrue_iff.mpr relates).symm
    | fails names reads comparable differs =>
        rw [Comparison.computed_names names, ← reads_iff.mp reads]
        exact congrArg Except.ok (compare_eq_parsedFalse_iff.mpr ⟨comparable, differs⟩).symm
    | incomparable names reads incomparable =>
        rw [Comparison.computed_names names, ← reads_iff.mp reads]
        exact congrArg Except.ok (compare_eq_unparsed_iff.mpr incomparable).symm
  · rintro rfl
    by_cases named : ∃ field, comparison.target.Names field
    · rcases named with ⟨field, names⟩
      have reads : Reads serde nodeOutputs comparison.nodeId field _ := reads_iff.mpr rfl
      rw [Comparison.computed_names names]
      cases resolved : resolveOutputRef serde nodeOutputs comparison.nodeId field with
      | error error =>
          rw [resolved] at reads
          exact .unresolved names reads
      | ok actual =>
          rw [resolved] at reads
          by_cases comparable : Comparable comparison.operator actual comparison.literal
          · by_cases relates : Relates comparison.operator actual comparison.literal
            · rw [Except.map, compare_eq_parsedTrue_iff.mpr relates]
              exact .holds names reads relates
            · rw [Except.map, compare_eq_parsedFalse_iff.mpr ⟨comparable, relates⟩]
              exact .fails names reads comparable relates
          · rw [Except.map, compare_eq_unparsed_iff.mpr comparable]
            exact .incomparable names reads comparable
    · rw [Comparison.computed]
      cases target : comparison.target with
      | output => exact absurd ⟨none, by rw [target]; rfl⟩ named
      | field name => exact absurd ⟨some name, by rw [target]; rfl⟩ named
      | shorthand name => exact absurd ⟨some name, by rw [target]; rfl⟩ named
      | nested name inner => exact .nested (not_exists.mp named)

theorem firstOther_iff {Part Result : Type} [DecidableEq Result] {neutral : Result}
    {Means : Part → Result → Prop} {computed : Part → Result}
    (means_iff : ∀ part result, Means part result ↔ result = computed part) (parts : List Part)
    (result : Result) :
    FirstOther neutral Means parts result ↔
      result = ((parts.map computed).find? (· ≠ neutral)).getD neutral := by
  induction parts with
  | nil =>
      constructor
      · intro first
        cases first
        rfl
      · rintro rfl
        exact .nil
  | cons part rest induction =>
      rw [List.map_cons, List.find?_cons]
      by_cases same : computed part = neutral
      · simp only [same, ne_eq, not_true_eq_false, decide_false]
        rw [← induction]
        constructor
        · intro first
          cases first with
          | next _ later => exact later
          | stops means differs =>
              rw [(means_iff _ _).mp means] at differs
              exact absurd same differs
        · exact .next ((means_iff _ _).mpr same.symm)
      · simp only [same, ne_eq, not_false_eq_true, decide_true, Option.getD_some]
        constructor
        · intro first
          cases first with
          | next means _ => exact absurd ((means_iff _ _).mp means).symm same
          | stops means differs => exact (means_iff _ _).mp means
        · rintro rfl
          exact .stops ((means_iff _ _).mpr rfl) same

theorem Clause.means_iff (clause : Clause) (result : Except OutputRefError EvaluationResult) :
    clause.Means serde nodeOutputs result ↔ result = clause.computed serde nodeOutputs :=
  firstOther_iff (fun term => term.comparison.means_iff) _ result

theorem Condition.means_iff (condition : Condition)
    (result : Except OutputRefError EvaluationResult) :
    condition.Means serde nodeOutputs result ↔ result = condition.computed serde nodeOutputs :=
  firstOther_iff Clause.means_iff _ result

end Evaluation

end ConditionSyntax

open ConditionEvaluator ConditionSyntax

/-- The evaluator gives the meaning of a condition for any of its written forms, and never
reports that a condition which is not parsed holds. -/
theorem evaluateCondition_meaning (serde : SerdeJson) (nodeOutputs : NodeOutputs) :
    (∀ (condition : Condition) (result : Except OutputRefError EvaluationResult),
      evaluateCondition serde nodeOutputs condition.render = result ↔
        condition.Means serde nodeOutputs result) ∧
    ∀ expr : String,
      evaluateCondition serde nodeOutputs expr ≠ .ok { result := true, parsed := false } := by
  constructor
  · intro condition result
    rw [evaluateCondition_render, Condition.means_iff, eq_comm]
  · intro expr
    exact evaluateOrClauses_ne serde nodeOutputs _

end HarnessAgent
