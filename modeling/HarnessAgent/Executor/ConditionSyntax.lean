import HarnessAgent.Executor.ConditionEvaluator

/-! # The language of conditions

Conditions as syntax trees: disjunctions of conjunctions of comparisons, with
their written forms. From a written form the evaluator of texts gets what the
functions it is made of compute at the tree.
-/

namespace HarnessAgent

namespace ConditionSyntax

open ConditionEvaluator

/-- What a reference reads from a node: the whole output, a field of it in the
full or the short form, or a field of a field, which has no meaning. -/
inductive Target
  | output
  | field (name : String)
  | shorthand (name : String)
  | nested (name inner : String)
  deriving DecidableEq, Repr

def Target.WellFormed : Target → Prop
  | .output => True
  | .field name => Reference.IsField name
  | .shorthand name => Reference.IsField name ∧ name ≠ "output"
  | .nested name inner => Reference.IsField name ∧ name ≠ "output" ∧ Reference.IsField inner

structure Comparison where
  nodeId : String
  target : Target
  operator : Operator
  literal : String
  isNodeId : Reference.IsNodeId nodeId
  wellFormed : target.WellFormed
  unquoted : '\'' ∉ literal.toList

abbrev Spacing := { text : List Char // Text.Blank text }

structure Term where
  comparison : Comparison
  before : Spacing
  beforeOperator : Spacing
  afterOperator : Spacing
  after : Spacing

structure Clause where
  first : Term
  rest : List Term

structure Condition where
  first : Clause
  rest : List Clause

/-! ## Written forms -/

def Target.firstSegment : Target → String
  | .output | .field _ => "output"
  | .shorthand name | .nested name _ => name

def Target.secondSegment : Target → Option String
  | .field name => some name
  | .nested _ inner => some inner
  | .output | .shorthand _ => none

def operatorText : Operator → List Char
  | .equal => ['=', '=']
  | .notEqual => ['!', '=']
  | .lessEqual => ['<', '=']
  | .greaterEqual => ['>', '=']
  | .less => ['<']
  | .greater => ['>']

def Target.render (target : Target) : List Char :=
  '.' :: target.firstSegment.toList ++
    match target.secondSegment with
    | some segment => '.' :: segment.toList
    | none => []

def Term.literal (term : Term) : List Char :=
  term.afterOperator.1 ++ ('\'' :: term.comparison.literal.toList ++ ['\''])

def Term.test (term : Term) : List Char :=
  operatorText term.comparison.operator ++ term.literal

def Term.core (term : Term) : List Char :=
  '$' :: (term.comparison.nodeId.toList ++
    (term.comparison.target.render ++ (term.beforeOperator.1 ++ term.test)))

def Term.render (term : Term) : List Char :=
  term.before.1 ++ term.core ++ term.after.1

def joined (separator : List Char) : List Char → List (List Char) → List Char
  | first, [] => first
  | first, next :: rest => first ++ separator ++ joined separator next rest

def Clause.render (clause : Clause) : List Char :=
  joined "&&".toList clause.first.render (clause.rest.map Term.render)

def Condition.render (condition : Condition) : String :=
  String.ofList
    (joined "||".toList condition.first.render (condition.rest.map Clause.render))

/-! ## Computed results

A clause gives its first comparison that does not hold, and a condition its first
clause that is not false: a later one is not reached. -/

section Results

variable (serde : SerdeJson) (nodeOutputs : NodeOutputs)

def Comparison.computed (comparison : Comparison) : Except OutputRefError EvaluationResult :=
  let reads (field : Option String) :=
    (resolveOutputRef serde nodeOutputs comparison.nodeId field).map fun actual =>
      compare comparison.operator actual comparison.literal
  match comparison.target with
  | .output => reads none
  | .field name | .shorthand name => reads (some name)
  | .nested _ _ => .ok unparsed

def Clause.computed (clause : Clause) : Except OutputRefError EvaluationResult :=
  (((clause.first :: clause.rest).map fun term =>
    term.comparison.computed serde nodeOutputs).find? (· ≠ .ok parsedTrue)).getD (.ok parsedTrue)

def Condition.computed (condition : Condition) : Except OutputRefError EvaluationResult :=
  (((condition.first :: condition.rest).map fun clause =>
    clause.computed serde nodeOutputs).find? (· ≠ .ok parsedFalse)).getD (.ok parsedFalse)

end Results

/-! ## Splitting written forms

A part is sealed for a separator if the splitter reads over it: its quotes are
paired, and the separator does not start outside them. -/

section Splitting

variable {separator : List Char}

def Sealed (separator part : List Char) : Prop :=
  ∀ current rest, splitLoop separator 0 false current (part ++ rest) =
    splitLoop separator 0 false (current ++ part) rest

theorem Sealed.append (sealedLeft : Sealed separator left) (sealedRight : Sealed separator right) :
    Sealed separator (left ++ right) := by
  intro current rest
  rw [List.append_assoc, sealedLeft, sealedRight, List.append_assoc]

variable {current : List Char} {inQuote : Bool} {rest : List Char}

theorem splitLoop_plain (notQuote : character ≠ '\'')
    (notStart : separator.isPrefixOf (character :: rest) = false) :
    splitLoop separator 0 inQuote current (character :: rest) =
      splitLoop separator 0 inQuote (current ++ [character]) rest := by
  rw [splitLoop, if_neg notQuote, notStart, Bool.and_false, if_neg Bool.false_ne_true]

variable {part : List Char}

theorem sealed_of_plain (nonempty : separator ≠ [])
    (plain : ∀ character ∈ part, character ≠ '\'' ∧ character ∉ separator) :
    Sealed separator part := by
  induction part with
  | nil =>
      intro current rest
      rw [List.nil_append, List.append_nil]
  | cons character part induction =>
      intro current rest
      rcases plain character List.mem_cons_self with ⟨notQuote, notSeparator⟩
      have notStart : separator.isPrefixOf (character :: (part ++ rest)) = false := by
        cases separator with
        | nil => exact absurd rfl nonempty
        | cons first others =>
            have different : first ≠ character :=
              fun same => notSeparator (same ▸ List.mem_cons_self)
            simp [List.isPrefixOf, different]
      have tail := induction fun other member => plain other (List.mem_cons_of_mem _ member)
      rw [List.cons_append, splitLoop_plain notQuote notStart, tail, List.append_assoc,
        List.singleton_append]

theorem sealed_quoted {literal : List Char} (unquoted : '\'' ∉ literal) :
    Sealed separator ('\'' :: literal ++ ['\'']) := by
  have inside : ∀ current rest,
      splitLoop separator 0 true current (literal ++ '\'' :: rest) =
        splitLoop separator 0 false (current ++ literal ++ ['\'']) rest := by
    induction literal with
    | nil =>
        intro current rest
        rw [List.nil_append, List.append_nil, splitLoop, if_pos rfl]
        rfl
    | cons character literal induction =>
        intro current rest
        have notQuote : character ≠ '\'' := fun same => unquoted (same ▸ List.mem_cons_self)
        have tail := induction fun member => unquoted (List.mem_cons_of_mem _ member)
        rw [List.cons_append, splitLoop, if_neg notQuote, Bool.not_true, Bool.false_and,
          if_neg Bool.false_ne_true, tail, List.append_assoc current, List.singleton_append]
  intro current rest
  have opened : splitLoop separator 0 false current ('\'' :: (literal ++ '\'' :: rest)) =
      splitLoop separator 0 true (current ++ ['\'']) (literal ++ '\'' :: rest) := by
    rw [splitLoop, if_pos rfl]
    rfl
  have split : '\'' :: literal ++ ['\''] ++ rest = '\'' :: (literal ++ '\'' :: rest) := by
    simp
  rw [split, opened, inside]
  simp

theorem splitLoop_skip {skipped : List Char} :
    splitLoop separator skipped.length inQuote current (skipped ++ rest) =
      splitLoop separator 0 inQuote current rest := by
  induction skipped with
  | nil => rfl
  | cons character skipped induction =>
      rw [List.length_cons, List.cons_append, splitLoop]
      exact induction

variable {others : List Char}

theorem splitLoop_separator {first : Char} (notQuote : first ≠ '\'') :
    splitLoop (first :: others) 0 false current (first :: others ++ rest) =
      String.ofList (Text.trim current) :: splitLoop (first :: others) 0 false [] rest := by
  have starts : (first :: others).isPrefixOf (first :: (others ++ rest)) = true :=
    List.isPrefixOf_iff_prefix.mpr (List.prefix_append _ _)
  rw [List.cons_append, splitLoop, if_neg notQuote, starts, Bool.not_false, Bool.and_self,
    if_pos rfl]
  exact congrArg _ splitLoop_skip

theorem splitLoop_joined {first : Char} (notQuote : first ≠ '\'')
    (allSealed : ∀ other ∈ part :: parts, Sealed (first :: others) other) :
    splitLoop (first :: others) 0 false [] (joined (first :: others) part parts) =
      (part :: parts).map fun other => String.ofList (Text.trim other) := by
  induction parts generalizing part with
  | nil =>
      have whole := allSealed part List.mem_cons_self [] []
      rw [List.append_nil, List.nil_append] at whole
      rw [joined, whole, splitLoop]
      rfl
  | cons next parts induction =>
      have rest := induction fun other member =>
        allSealed other (List.mem_cons_of_mem _ member)
      rw [joined, List.append_assoc, allSealed part List.mem_cons_self, List.nil_append,
        splitLoop_separator notQuote, rest]
      rfl

/-- White space at the start of a part is trimmed away with it. -/
theorem splitLoop_blank_append {before : List Char} (blank : Text.Blank before) {skip : Nat}
    (current text : List Char) :
    splitLoop separator skip inQuote (before ++ current) text =
      splitLoop separator skip inQuote current text := by
  induction text generalizing skip inQuote current with
  | nil => simp only [splitLoop, Text.trim_of_blank_append blank]
  | cons character text induction =>
      cases skip with
      | succ skip => simp only [splitLoop, induction]
      | zero =>
          simp only [splitLoop, List.append_assoc, induction, Text.trim_of_blank_append blank]

theorem isPrefixOf_append_blank (text : List Char) {after : List Char} (blank : Text.Blank after)
    (solid : ∀ character ∈ separator, Text.isWhitespace character = false) :
    separator.isPrefixOf (text ++ after) = separator.isPrefixOf text := by
  induction separator generalizing text with
  | nil => rfl
  | cons first others induction =>
      have rest := fun other member => solid other (List.mem_cons_of_mem _ member)
      cases text with
      | cons character text =>
          rw [List.cons_append, List.isPrefixOf, List.isPrefixOf, induction text rest]
      | nil =>
          cases after with
          | nil => rfl
          | cons space after =>
              have different : first ≠ space := by
                intro same
                have solidFirst := solid first List.mem_cons_self
                rw [same, blank space List.mem_cons_self] at solidFirst
                cases solidFirst
              simp [List.isPrefixOf, different]

theorem splitLoop_append_blank {after : List Char} (blank : Text.Blank after)
    (nonempty : separator ≠ [])
    (solid : ∀ character ∈ separator, Text.isWhitespace character = false)
    (within : skip ≤ text.length) :
    splitLoop separator skip inQuote current (text ++ after) =
      splitLoop separator skip inQuote current text := by
  induction text generalizing skip inQuote current with
  | nil =>
      have noSkip : skip = 0 := Nat.le_zero.mp within
      subst noSkip
      rw [List.nil_append]
      induction after generalizing current with
      | nil => rfl
      | cons space after induction =>
          have spaceBlank := blank space List.mem_cons_self
          have restBlank : Text.Blank after :=
            fun other member => blank other (List.mem_cons_of_mem _ member)
          have notQuote : space ≠ '\'' := by
            intro same
            rw [same] at spaceBlank
            revert spaceBlank
            decide
          have notStart : separator.isPrefixOf (space :: after) = false := by
            have none := isPrefixOf_append_blank [] blank solid
            rw [List.nil_append] at none
            rw [none]
            cases separator with
            | nil => exact absurd rfl nonempty
            | cons first others => rfl
          have single : Text.Blank [space] := by
            intro other member
            rw [List.mem_singleton.mp member, spaceBlank]
          rw [splitLoop_plain notQuote notStart, induction restBlank, splitLoop, splitLoop,
            Text.trim_append_of_blank single]
  | cons character text induction =>
      rw [List.cons_append]
      cases skip with
      | succ skip =>
          rw [splitLoop, splitLoop, induction (Nat.le_of_succ_le_succ within)]
      | zero =>
          have starts : separator.isPrefixOf (character :: (text ++ after)) =
              separator.isPrefixOf (character :: text) :=
            isPrefixOf_append_blank (character :: text) blank solid
          rw [splitLoop, splitLoop, starts, induction (Nat.zero_le _), induction (Nat.zero_le _)]
          cases separates : !inQuote && separator.isPrefixOf (character :: text) with
          | false => rfl
          | true =>
              have fits : separator.length - 1 ≤ text.length := by
                have found := List.isPrefixOf_iff_prefix.mp (Bool.and_eq_true_iff.mp separates).2
                have bound := found.length_le
                rw [List.length_cons] at bound
                omega
              rw [induction fits]

theorem splitLoop_trim {text : List Char} (nonempty : separator ≠ [])
    (solid : ∀ character ∈ separator, Text.isWhitespace character = false) :
    splitLoop separator 0 false [] (Text.trim text) = splitLoop separator 0 false [] text := by
  rcases Text.exists_trim text with ⟨before, after, blankBefore, blankAfter, split⟩
  have plain : ∀ character ∈ before, character ≠ '\'' ∧ character ∉ separator := by
    intro character member
    have isBlank := blankBefore character member
    constructor
    · intro same
      rw [same] at isBlank
      revert isBlank
      decide
    · intro inSeparator
      rw [solid character inSeparator] at isBlank
      cases isBlank
  have leading := sealed_of_plain nonempty plain [] (Text.trim text)
  rw [List.nil_append] at leading
  have whole : splitLoop separator 0 false (before ++ []) (Text.trim text) =
      splitLoop separator 0 false [] (Text.trim text) :=
    splitLoop_blank_append blankBefore [] (Text.trim text)
  rw [List.append_nil] at whole
  calc splitLoop separator 0 false [] (Text.trim text)
      = splitLoop separator 0 false [] (before ++ Text.trim text) := by rw [leading, whole]
    _ = splitLoop separator 0 false [] (before ++ Text.trim text ++ after) :=
        (splitLoop_append_blank blankAfter nonempty solid (Nat.zero_le _)).symm
    _ = splitLoop separator 0 false [] text := by rw [← split]

theorem splitOutsideQuotes_joined {separator : String} {first : Char}
    (isText : separator.toList = first :: others) (notQuote : first ≠ '\'')
    (solid : ∀ character ∈ separator.toList, Text.isWhitespace character = false)
    (allSealed : ∀ other ∈ part :: parts, Sealed separator.toList other) :
    splitOutsideQuotes (String.ofList (Text.trim (joined separator.toList part parts)))
        separator =
      (part :: parts).map fun other => String.ofList (Text.trim other) := by
  have text : (String.ofList (Text.trim (joined separator.toList part parts))).toList =
      Text.trim (joined separator.toList part parts) := String.toList_ofList
  rw [splitOutsideQuotes, text, splitLoop_trim (by simp [isText]) solid]
  rw [isText] at allSealed ⊢
  exact splitLoop_joined notQuote allSealed

end Splitting

/-! ## Parsing comparisons -/

theorem isFieldPart_of_blank (blank : Text.isWhitespace character = true) :
    Reference.isFieldPart character = false := by
  have notMark : character ≠ '_' := by
    intro same
    rw [same] at blank
    revert blank
    decide
  simp only [Text.isWhitespace, Bool.or_eq_true, Bool.and_eq_true, decide_eq_true_eq,
    beq_iff_eq] at blank
  simp only [Reference.isFieldPart, Reference.isStart, Text.isAsciiLetter, Text.isAsciiDigit,
    Bool.or_eq_false_iff, Bool.and_eq_false_iff, decide_eq_false_iff_not, beq_eq_false_iff_ne]
  refine ⟨⟨⟨?_, ?_⟩, notMark⟩, ?_⟩ <;> omega

variable {text : List Char}

theorem head_of_blank_append {property : Char → Prop} {before : List Char}
    (blank : Text.Blank before)
    (ofBlank : ∀ character, Text.isWhitespace character = true → property character)
    (ofText : ∀ character ∈ text.head?, property character) :
    ∀ character ∈ (before ++ text).head?, property character := by
  intro character found
  cases before with
  | nil => exact ofText character found
  | cons space before =>
      cases found
      exact ofBlank character (blank character List.mem_cons_self)

theorem trimStart_blank_append {before : List Char} (blank : Text.Blank before)
    (solid : ∀ character ∈ text.head?, Text.isWhitespace character = false) :
    Text.trimStart (before ++ text) = text := by
  rw [Text.trimStart_append_of_blank blank, Text.trimStart]
  cases text with
  | nil => rfl
  | cons character text =>
      exact List.dropWhile_cons_of_neg (by simp [solid character rfl])

variable (operator : Operator)

theorem operatorText_head (rest : List Char) :
    ∀ character ∈ (operatorText operator ++ rest).head?,
      Text.isWhitespace character = false ∧ Reference.isFieldPart character = false ∧
        character ≠ '.' := by
  intro character found
  cases operator <;> cases found <;> decide

theorem takeOperator_operatorText {rest : List Char}
    (noEquals : ∀ character ∈ rest.head?, character ≠ '=') :
    takeOperator (operatorText operator ++ rest) = some (operator, rest) := by
  have tail : ∀ more, rest ≠ '=' :: more := by
    intro more same
    rw [same] at noEquals
    exact noEquals '=' rfl rfl
  cases operator with
  | equal => rfl
  | notEqual => rfl
  | lessEqual => rfl
  | greaterEqual => rfl
  | less =>
      show takeOperator ('<' :: rest) = _
      rw [takeOperator]
      exact tail
  | greater =>
      show takeOperator ('>' :: rest) = _
      rw [takeOperator]
      exact tail

theorem quotedLiteral_quoted {literal : List Char} (unquoted : '\'' ∉ literal) :
    quotedLiteral ('\'' :: literal ++ ['\'']) = some literal := by
  have inside : ∀ character ∈ literal, (character != '\'') = true := by
    intro character member
    exact bne_iff_ne.mpr fun same => unquoted (same ▸ member)
  have ends : (literal ++ ['\'']).dropWhile (· != '\'') = ['\''] := by
    rw [List.dropWhile_append_of_pos inside]
    rfl
  rw [List.cons_append, quotedLiteral, if_pos ends, List.takeWhile_append_of_pos inside]
  simp

def Term.atom (term : Term) : Atom where
  nodeId := term.comparison.nodeId
  segment1 := term.comparison.target.firstSegment
  segment2 := term.comparison.target.secondSegment
  operator := term.comparison.operator
  expected := term.comparison.literal

variable {target : Target}

theorem Target.WellFormed.first (wellFormed : target.WellFormed) :
    Reference.IsField target.firstSegment := by
  have output : Reference.IsField "output" := by
    rw [Reference.IsField]
    decide
  cases target with
  | output => exact output
  | field name => exact output
  | shorthand name => exact wellFormed.1
  | nested name inner => exact wellFormed.1

theorem Target.WellFormed.second (wellFormed : target.WellFormed) :
    ∀ segment ∈ target.secondSegment, Reference.IsField segment := by
  intro segment found
  cases target with
  | output => cases found
  | field name =>
      cases found
      exact wellFormed
  | shorthand name => cases found
  | nested name inner =>
      cases found
      exact wellFormed.2.2

variable {name : String}

theorem field_append (isField : Reference.IsField name) {rest : List Char}
    (ends : ∀ character ∈ rest.head?, Reference.isFieldPart character = false) :
    Reference.field (name.toList ++ rest) = some (name.toList, rest) :=
  Text.identifier_of_whole isField ends

def ReadsTarget (target : Target) (text rest : List Char) : Prop :=
  ∃ between, (Text.afterLiteral ['.'] text).bind Reference.field =
      some (target.firstSegment.toList, between) ∧
    match target.secondSegment with
    | none => between = rest ∧ (Text.afterLiteral ['.'] between).bind Reference.field = none
    | some segment =>
        (Text.afterLiteral ['.'] between).bind Reference.field = some (segment.toList, rest)

theorem readsTarget_render (wellFormed : target.WellFormed) {rest : List Char}
    (ends : ∀ character ∈ rest.head?, Reference.isFieldPart character = false ∧ character ≠ '.') :
    ReadsTarget target (target.render ++ rest) rest := by
  have noPart := fun character found => (ends character found).1
  cases second : target.secondSegment with
  | none =>
      have first := field_append wellFormed.first noPart
      have noDot : Text.afterLiteral ['.'] rest = none := by
        cases rest with
        | nil => rfl
        | cons character rest =>
            have different : ('.' == character) = false :=
              beq_eq_false_iff_ne.mpr (ends character rfl).2.symm
            simp [Text.afterLiteral, List.isPrefixOf?, different]
      refine ⟨rest, ?_, ?_⟩
      · simp [Target.render, second, Text.afterLiteral, List.isPrefixOf?, first]
      · simp [second, noDot]
  | some segment =>
      have last := field_append (wellFormed.second segment second) noPart
      have dotEnds : ∀ character ∈ ('.' :: (segment.toList ++ rest)).head?,
          Reference.isFieldPart character = false := by
        intro character found
        cases found
        decide
      have first := field_append wellFormed.first dotEnds
      refine ⟨'.' :: (segment.toList ++ rest), ?_, ?_⟩
      · simp [Target.render, second, Text.afterLiteral, List.isPrefixOf?, first]
      · simp [second, Text.afterLiteral, List.isPrefixOf?, last]

variable (term : Term)

theorem Term.read_reference :
    ReadsTarget term.comparison.target
      (term.comparison.target.render ++ (term.beforeOperator.1 ++ term.test))
      (term.beforeOperator.1 ++ term.test) := by
  apply readsTarget_render term.comparison.wellFormed
  refine head_of_blank_append term.beforeOperator.2 ?_ ?_
  · intro space blank
    refine ⟨isFieldPart_of_blank blank, ?_⟩
    intro same
    rw [same] at blank
    revert blank
    decide
  · intro mark found
    exact (operatorText_head _ _ mark found).2

theorem Term.read_operator :
    takeOperator (Text.trimStart (term.beforeOperator.1 ++ term.test)) =
      some (term.comparison.operator, term.literal) := by
  have solid : ∀ character ∈ term.test.head?, Text.isWhitespace character = false :=
    fun character found => (operatorText_head _ _ character found).1
  rw [trimStart_blank_append term.beforeOperator.2 solid]
  apply takeOperator_operatorText
  refine head_of_blank_append term.afterOperator.2 ?_ ?_
  · intro space blank same
    rw [same] at blank
    revert blank
    decide
  · intro mark found
    cases found
    decide

theorem Term.read_literal :
    quotedLiteral (Text.trimStart term.literal) = some term.comparison.literal.toList := by
  rw [Term.literal, trimStart_blank_append term.afterOperator.2]
  · exact quotedLiteral_quoted term.comparison.unquoted
  · intro character found
    cases found
    decide

theorem parseAtom_core : parseAtom term.core = some term.atom := by
  have readDollar : Text.afterLiteral ['$'] term.core = some (term.comparison.nodeId.toList ++
      (term.comparison.target.render ++ (term.beforeOperator.1 ++ term.test))) := rfl
  have readId : Reference.nodeId (term.comparison.nodeId.toList ++
      (term.comparison.target.render ++ (term.beforeOperator.1 ++ term.test))) =
      some (term.comparison.nodeId.toList,
        term.comparison.target.render ++ (term.beforeOperator.1 ++ term.test)) := by
    apply Text.identifier_of_whole term.comparison.isNodeId
    intro character found
    cases found
    decide
  rcases term.read_reference with ⟨between, readFirst, readSecond⟩
  cases second : term.comparison.target.secondSegment with
  | none =>
      simp only [second] at readSecond
      rcases readSecond with ⟨rfl, noSecond⟩
      simp [parseAtom, readDollar, readId, readFirst, noSecond, term.read_operator,
        term.read_literal, Term.atom, second]
  | some segment =>
      simp only [second] at readSecond
      simp [parseAtom, readDollar, readId, readFirst, readSecond, term.read_operator,
        term.read_literal, Term.atom, second]

/-! ## Evaluating written forms -/

def Neutral (text : List Char) : Prop :=
  ∀ character ∈ text, character ≠ '\'' ∧ character ∉ "&&".toList ∧ character ∉ "||".toList

instance (text : List Char) : Decidable (Neutral text) :=
  List.decidableBAll (fun character =>
    character ≠ '\'' ∧ character ∉ "&&".toList ∧ character ∉ "||".toList) text

theorem Neutral.append (neutralLeft : Neutral left) (neutralRight : Neutral right) :
    Neutral (left ++ right) := by
  intro character member
  rcases List.mem_append.mp member with inLeft | inRight
  · exact neutralLeft character inLeft
  · exact neutralRight character inRight

theorem neutral_of_class (isMember : Char → Bool)
    (members : ∀ character ∈ text, isMember character = true)
    (excluded : isMember '\'' = false ∧ isMember '&' = false ∧ isMember '|' = false) :
    Neutral text := by
  intro character member
  have found := members character member
  refine ⟨?_, ?_, ?_⟩
  · intro same
    rw [same, excluded.1] at found
    cases found
  · intro inAnd
    have same : character = '&' := by simpa using inAnd
    rw [same, excluded.2.1] at found
    cases found
  · intro inOr
    have same : character = '|' := by simpa using inOr
    rw [same, excluded.2.2] at found
    cases found

theorem neutral_blank (blank : Text.Blank text) : Neutral text :=
  neutral_of_class Text.isWhitespace blank (by decide)

theorem neutral_nodeId (isNodeId : Reference.IsNodeId name) : Neutral name.toList := by
  refine neutral_of_class Reference.isNodeIdPart ?_ (by decide)
  intro character member
  rcases Text.mem_of_identifier isNodeId character member with starts | continues
  · simp [Reference.isNodeIdPart, Reference.isFieldPart, starts]
  · exact continues

theorem neutral_field (isField : Reference.IsField name) : Neutral name.toList := by
  refine neutral_of_class Reference.isFieldPart ?_ (by decide)
  intro character member
  rcases Text.mem_of_identifier isField character member with starts | continues
  · simp [Reference.isFieldPart, starts]
  · exact continues

theorem neutral_target (wellFormed : target.WellFormed) : Neutral target.render := by
  have dot : Neutral ['.'] := by decide
  have first := dot.append (neutral_field wellFormed.first)
  cases second : target.secondSegment with
  | none => simpa [Target.render, second] using first
  | some segment =>
      have last := dot.append (neutral_field (wellFormed.second segment second))
      simpa [Target.render, second] using first.append last

theorem neutral_operatorText : Neutral (operatorText operator) := by
  cases operator <;> decide

theorem sealed_of_neutral (isSeparator : separator = "&&".toList ∨ separator = "||".toList)
    (neutral : Neutral part) : Sealed separator part := by
  rcases isSeparator with rfl | rfl
  · refine sealed_of_plain (by decide) fun character member => ?_
    exact ⟨(neutral character member).1, (neutral character member).2.1⟩
  · refine sealed_of_plain (by decide) fun character member => ?_
    exact ⟨(neutral character member).1, (neutral character member).2.2⟩

theorem Term.sealed_render (isSeparator : separator = "&&".toList ∨ separator = "||".toList) :
    Sealed separator term.render := by
  have dollar : Neutral ['$'] := by decide
  have unquoted : Neutral (term.before.1 ++ ['$'] ++ term.comparison.nodeId.toList ++
      term.comparison.target.render ++ term.beforeOperator.1 ++
      operatorText term.comparison.operator ++ term.afterOperator.1) :=
    ((((((neutral_blank term.before.2).append dollar).append
      (neutral_nodeId term.comparison.isNodeId)).append
      (neutral_target term.comparison.wellFormed)).append
      (neutral_blank term.beforeOperator.2)).append
      (neutral_operatorText term.comparison.operator)).append
      (neutral_blank term.afterOperator.2)
  have whole := ((sealed_of_neutral isSeparator unquoted).append
    (sealed_quoted term.comparison.unquoted)).append
    (sealed_of_neutral isSeparator (neutral_blank term.after.2))
  simpa [Term.render, Term.core, Term.test, Term.literal] using whole

theorem Clause.sealed_render (clause : Clause) : Sealed "||".toList clause.render := by
  rcases clause with ⟨first, rest⟩
  induction rest generalizing first with
  | nil => exact first.sealed_render (.inr rfl)
  | cons next rest induction =>
      have separator : Sealed "||".toList "&&".toList :=
        sealed_of_plain (by decide) (Text.forall_of_all (by decide))
      exact ((first.sealed_render (.inr rfl)).append separator).append (induction next)

theorem Term.trim_render : Text.trim term.render = term.core := by
  have starts : Text.isWhitespace '$' = false := by decide
  have ends : Text.isWhitespace '\'' = false := by decide
  have shape : term.core = '$' :: (term.comparison.nodeId.toList ++
      term.comparison.target.render ++ term.beforeOperator.1 ++
      operatorText term.comparison.operator ++ term.afterOperator.1 ++
      '\'' :: term.comparison.literal.toList) ++ ['\''] := by
    simp [Term.core, Term.test, Term.literal]
  rw [Term.render, Text.trim_append_of_blank term.after.2,
    Text.trim_of_blank_append term.before.2, shape, Text.trim_eq_self starts ends]

section Evaluation

variable (serde : SerdeJson) (nodeOutputs : NodeOutputs)

theorem Comparison.computed_eq (comparison : Comparison) :
    comparison.computed serde nodeOutputs =
      if comparison.target.firstSegment = "output" then
        (resolveOutputRef serde nodeOutputs comparison.nodeId
          comparison.target.secondSegment).map fun actual =>
            compare comparison.operator actual comparison.literal
      else
        match comparison.target.secondSegment with
        | some _ => .ok unparsed
        | none =>
            (resolveOutputRef serde nodeOutputs comparison.nodeId
              (some comparison.target.firstSegment)).map fun actual =>
                compare comparison.operator actual comparison.literal := by
  rcases comparison with ⟨nodeId, target, operator, literal, isNodeId, wellFormed, unquoted⟩
  cases target with
  | output => rfl
  | field name => rfl
  | shorthand name =>
      rw [Target.firstSegment, if_neg wellFormed.2]
      rfl
  | nested name inner =>
      rw [Target.firstSegment, if_neg wellFormed.2.1]
      rfl

theorem evaluateAtom_render (term : Term) :
    evaluateAtom serde nodeOutputs (String.ofList (Text.trim term.render)) =
      term.comparison.computed serde nodeOutputs := by
  rw [evaluateAtom, String.toList_ofList, Text.trim_trim, term.trim_render, parseAtom_core,
    Comparison.computed_eq]
  rfl

theorem compare_ne (operator : Operator) (actual expected : String) :
    ConditionEvaluator.compare operator actual expected ≠ ⟨true, false⟩ := by
  have parsedOr : (ConditionEvaluator.compare operator actual expected).parsed = true ∨
      ConditionEvaluator.compare operator actual expected = unparsed := by
    cases operator with
    | equal => exact .inl rfl
    | notEqual => exact .inl rfl
    | _ =>
        simp only [ConditionEvaluator.compare]
        split
        · exact .inl rfl
        · exact .inr rfl
  intro same
  rw [same] at parsedOr
  rcases parsedOr with parsed | unparsed
  · cases parsed
  · cases unparsed

theorem evaluateAtom_ne (expr : String) :
    evaluateAtom serde nodeOutputs expr ≠ .ok ⟨true, false⟩ := by
  have compared : ∀ (resolved : Except OutputRefError String) operator expected,
      (resolved.map fun actual => compare operator actual expected) ≠ .ok ⟨true, false⟩ := by
    intro resolved operator expected same
    cases resolved with
    | error error => cases same
    | ok actual => exact compare_ne operator actual expected (Except.ok.inj same)
  rw [evaluateAtom]
  cases parseAtom (Text.trim expr.toList) with
  | none =>
      intro same
      cases same
  | some atom =>
      simp only
      split
      · exact compared _ _ _
      · split
        · intro same
          cases same
        · exact compared _ _ _

theorem evaluateAndAtoms_render (terms : List Term) :
    evaluateAndAtoms serde nodeOutputs
        (terms.map fun term => String.ofList (Text.trim term.render)) =
      ((terms.map fun term => term.comparison.computed serde nodeOutputs).find?
        (· ≠ .ok parsedTrue)).getD (.ok parsedTrue) := by
  induction terms with
  | nil => rfl
  | cons term terms induction =>
      have possible := evaluateAtom_ne serde nodeOutputs (String.ofList (Text.trim term.render))
      rw [evaluateAtom_render] at possible
      rw [List.map_cons, evaluateAndAtoms, evaluateAtom_render, induction, List.map_cons]
      cases computed : term.comparison.computed serde nodeOutputs with
      | error error => rfl
      | ok result =>
          rw [computed] at possible
          rcases result with ⟨_ | _, _ | _⟩
          · rfl
          · rfl
          · exact absurd rfl possible
          · rfl

theorem evaluateAndAtoms_ne (atoms : List String) :
    evaluateAndAtoms serde nodeOutputs atoms ≠ .ok ⟨true, false⟩ := by
  induction atoms with
  | nil =>
      intro same
      cases same
  | cons atom rest induction =>
      rw [evaluateAndAtoms]
      cases evaluateAtom serde nodeOutputs atom with
      | error error =>
          intro same
          cases same
      | ok result =>
          rcases result with ⟨_ | _, _ | _⟩
          · intro same
            cases same
          · intro same
            cases same
          · intro same
            cases same
          · exact induction

theorem evaluateAndAtoms_clause (clause : Clause) :
    evaluateAndAtoms serde nodeOutputs
        (splitOutsideQuotes (String.ofList (Text.trim clause.render)) "&&") =
      clause.computed serde nodeOutputs := by
  have split : splitOutsideQuotes (String.ofList (Text.trim clause.render)) "&&" =
      (clause.first :: clause.rest).map fun term => String.ofList (Text.trim term.render) := by
    have allSealed : ∀ part ∈ clause.first.render :: clause.rest.map Term.render,
        Sealed "&&".toList part := by
      intro part member
      rw [← List.map_cons, List.mem_map] at member
      rcases member with ⟨term, -, rfl⟩
      exact term.sealed_render (.inl rfl)
    rw [Clause.render, splitOutsideQuotes_joined rfl (by decide)
        (Text.forall_of_all (by decide)) allSealed, ← List.map_cons, List.map_map]
    rfl
  rw [split, evaluateAndAtoms_render]
  rfl

theorem evaluateOrClauses_render (clauses : List Clause) :
    evaluateOrClauses serde nodeOutputs
        (clauses.map fun clause => String.ofList (Text.trim clause.render)) =
      ((clauses.map fun clause => clause.computed serde nodeOutputs).find?
        (· ≠ .ok parsedFalse)).getD (.ok parsedFalse) := by
  induction clauses with
  | nil => rfl
  | cons clause clauses induction =>
      have possible := evaluateAndAtoms_ne serde nodeOutputs
        (splitOutsideQuotes (String.ofList (Text.trim clause.render)) "&&")
      rw [evaluateAndAtoms_clause] at possible
      rw [List.map_cons, evaluateOrClauses, evaluateAndAtoms_clause, induction, List.map_cons]
      cases computed : clause.computed serde nodeOutputs with
      | error error => rfl
      | ok result =>
          rw [computed] at possible
          rcases result with ⟨_ | _, _ | _⟩
          · rfl
          · rfl
          · exact absurd rfl possible
          · rfl

theorem evaluateOrClauses_ne (clauses : List String) :
    evaluateOrClauses serde nodeOutputs clauses ≠ .ok ⟨true, false⟩ := by
  induction clauses with
  | nil =>
      intro same
      cases same
  | cons clause rest induction =>
      rw [evaluateOrClauses]
      cases evaluateAndAtoms serde nodeOutputs (splitOutsideQuotes clause "&&") with
      | error error =>
          intro same
          cases same
      | ok result =>
          rcases result with ⟨_ | _, _ | _⟩
          · intro same
            cases same
          · exact induction
          · intro same
            cases same
          · intro same
            cases same

/-- From a written form the evaluator gets the result at the tree. -/
theorem evaluateCondition_render (condition : Condition) :
    evaluateCondition serde nodeOutputs condition.render =
      condition.computed serde nodeOutputs := by
  have allSealed : ∀ part ∈ condition.first.render :: condition.rest.map Clause.render,
      Sealed "||".toList part := by
    intro part member
    rw [← List.map_cons, List.mem_map] at member
    rcases member with ⟨clause, -, rfl⟩
    exact clause.sealed_render
  have split : splitOutsideQuotes condition.render.trimmed "||" =
      (condition.first :: condition.rest).map fun clause =>
        String.ofList (Text.trim clause.render) := by
    have text : condition.render.toList = joined "||".toList condition.first.render
        (condition.rest.map Clause.render) := String.toList_ofList
    rw [String.trimmed, text,
      splitOutsideQuotes_joined rfl (by decide) (Text.forall_of_all (by decide)) allSealed,
      ← List.map_cons, List.map_map]
    rfl
  rw [evaluateCondition, split, evaluateOrClauses_render]
  rfl

end Evaluation

end ConditionSyntax

end HarnessAgent
