import HarnessAgent.Executor.OutputRef
import Mathlib.Data.List.AList

/-! # Conditions of nodes

The evaluator of `when` expressions. A malformed expression is reported as not
parsed; a reference that cannot be resolved is an error of the evaluation.
-/

namespace HarnessAgent

abbrev NodeOutputs := AList (fun _ : String => NodeOutput)

namespace ConditionEvaluator

/-! ## Numbers -/

/-- The ASCII white space that number parsing skips, vertical tabs excluded. -/
def isAsciiWhitespace (character : Char) : Bool :=
  character == '\t' || character == '\n' || character.toNat == 0x0C || character == '\r' ||
    character == ' '

def takeSign : List Char → List Char × List Char
  | '+' :: rest => (['+'], rest)
  | '-' :: rest => (['-'], rest)
  | text => ([], text)

def exponentPrefix : List Char → List Char
  | [] => []
  | mark :: rest =>
      if mark == 'e' || mark == 'E' then
        let signed := takeSign rest
        let digits := signed.2.takeWhile Text.isAsciiDigit
        if digits = [] then [] else mark :: signed.1 ++ digits
      else []

/-- The numeric prefix of a text that starts with neither white space nor a
spelling of infinity. -/
def numericPrefix (text : List Char) : Option (List Char) :=
  let signed := takeSign text
  match signed.2 with
  | '.' :: rest =>
      let fraction := rest.takeWhile Text.isAsciiDigit
      if fraction = [] then none
      else
        some (signed.1 ++ '.' :: fraction ++
          exponentPrefix (rest.dropWhile Text.isAsciiDigit))
  | unsigned =>
      let whole := unsigned.takeWhile Text.isAsciiDigit
      if whole = [] then none
      else
        match unsigned.dropWhile Text.isAsciiDigit with
        | '.' :: rest =>
            some (signed.1 ++ whole ++ '.' :: rest.takeWhile Text.isAsciiDigit ++
              exponentPrefix (rest.dropWhile Text.isAsciiDigit))
        | rest => some (signed.1 ++ whole ++ exponentPrefix rest)

def digitsValue (digits : List Char) : Nat :=
  digits.foldl (fun value digit => value * 10 + (digit.toNat - 0x30)) 0

def parseDecimal (numeral : List Char) : F64 :=
  let signed := takeSign numeral
  let whole := signed.2.takeWhile Text.isAsciiDigit
  let afterWhole := signed.2.dropWhile Text.isAsciiDigit
  let pointed := afterWhole.head? == some '.'
  let fraction := if pointed then (afterWhole.drop 1).takeWhile Text.isAsciiDigit else []
  let afterFraction :=
    if pointed then (afterWhole.drop 1).dropWhile Text.isAsciiDigit else afterWhole
  let exponent := takeSign (afterFraction.drop 1)
  let scale : Int :=
    (if exponent.1 = ['-'] then -(digitsValue exponent.2 : Int)
      else digitsValue exponent.2) - fraction.length
  let magnitude : Rat := digitsValue (whole ++ fraction) * (10 : Rat) ^ scale
  if signed.1 = ['-'] then (F64.ofRat magnitude).neg else F64.ofRat magnitude

/-- A negative zero keeps its sign. -/
example : parseDecimal "-0".toList = ⟨0x8000000000000000⟩ := by decide +kernel

def parseFloatJs (text : String) : F64 :=
  let text := text.toList.dropWhile isAsciiWhitespace
  if text = [] then F64.nan
  else if "Infinity".toList.isPrefixOf text then F64.infinity
  else if "-Infinity".toList.isPrefixOf text then F64.negInfinity
  else if "+Infinity".toList.isPrefixOf text then F64.infinity
  else
    match numericPrefix text with
    | some numeral => parseDecimal numeral
    | none => F64.nan

/-! ## Atoms -/

inductive Operator
  | equal
  | notEqual
  | lessEqual
  | greaterEqual
  | less
  | greater
  deriving DecidableEq, Repr

structure Atom where
  nodeId : String
  segment1 : String
  segment2 : Option String
  operator : Operator
  expected : String
  deriving DecidableEq, Repr

def takeOperator : List Char → Option (Operator × List Char)
  | '=' :: '=' :: rest => some (.equal, rest)
  | '!' :: '=' :: rest => some (.notEqual, rest)
  | '<' :: '=' :: rest => some (.lessEqual, rest)
  | '>' :: '=' :: rest => some (.greaterEqual, rest)
  | '<' :: rest => some (.less, rest)
  | '>' :: rest => some (.greater, rest)
  | _ => none

def quotedLiteral : List Char → Option (List Char)
  | '\'' :: rest =>
      if rest.dropWhile (· != '\'') = ['\''] then some (rest.takeWhile (· != '\'')) else none
  | _ => none

def isNumber (text : List Char) : Bool :=
  let unsigned :=
    match text with
    | '-' :: rest => rest
    | _ => text
  unsigned.takeWhile Text.isDecimalDigit != [] &&
    match unsigned.dropWhile Text.isDecimalDigit with
    | [] => true
    | '.' :: fraction => fraction != [] && fraction.all Text.isDecimalDigit
    | _ => false

def unquotedLiteral (text : List Char) : Option (List Char) :=
  if isNumber text || text = "true".toList || text = "false".toList then some text else none

def parseAtom (text : List Char) : Option Atom := do
  let afterDollar ← Text.afterLiteral ['$'] text
  let (nodeId, rest) ← Reference.nodeId afterDollar
  let (segment1, rest) ← (Text.afterLiteral ['.'] rest).bind Reference.field
  let (segment2, rest) :=
    match (Text.afterLiteral ['.'] rest).bind Reference.field with
    | some (segment, rest) => (some (String.ofList segment), rest)
    | none => (none, rest)
  let (operator, rest) ← takeOperator (Text.trimStart rest)
  let literal := Text.trimStart rest
  let expected ← (quotedLiteral literal).or (unquotedLiteral literal)
  return { nodeId := String.ofList nodeId, segment1 := String.ofList segment1, segment2,
           operator, expected := String.ofList expected }

structure EvaluationResult where
  result : Bool
  parsed : Bool
  deriving DecidableEq, Repr

def parsedTrue : EvaluationResult := ⟨true, true⟩

def parsedFalse : EvaluationResult := ⟨false, true⟩

def unparsed : EvaluationResult := ⟨false, false⟩

section Evaluation

variable (serde : SerdeJson) (nodeOutputs : NodeOutputs)

def resolveOutputRef (nodeId : String) (field : Option String) :
    Except OutputRefError String :=
  match nodeOutputs.lookup nodeId with
  | none => .ok ""
  | some nodeOutput =>
      match field with
      | none => .ok nodeOutput.output
      | some field =>
          (resolveNodeOutputField serde nodeOutput nodeId field).map fun resolution =>
            match resolution with
            | .empty => ""
            | .value (.string text) => text
            | .value (.bool value) => if value then "true" else "false"
            | .value value => serde.toString value

def compare (operator : Operator) (actual expected : String) : EvaluationResult :=
  match operator with
  | .equal => ⟨actual = expected, true⟩
  | .notEqual => ⟨actual ≠ expected, true⟩
  | operator =>
      let actualNum := parseFloatJs actual
      let expectedNum := parseFloatJs expected
      if actualNum.isFinite && expectedNum.isFinite then
        match operator with
        | .less => ⟨actualNum.value < expectedNum.value, true⟩
        | .greater => ⟨expectedNum.value < actualNum.value, true⟩
        | .lessEqual => ⟨actualNum.value ≤ expectedNum.value, true⟩
        | .greaterEqual => ⟨expectedNum.value ≤ actualNum.value, true⟩
        | _ => unparsed
      else unparsed

def evaluateAtom (expr : String) : Except OutputRefError EvaluationResult :=
  match parseAtom (Text.trim expr.toList) with
  | none => .ok unparsed
  | some atom =>
      if atom.segment1 = "output" then
        (resolveOutputRef serde nodeOutputs atom.nodeId atom.segment2).map fun actual =>
          compare atom.operator actual atom.expected
      else
        match atom.segment2 with
        | some _ => .ok unparsed
        | none =>
            (resolveOutputRef serde nodeOutputs atom.nodeId (some atom.segment1)).map
              fun actual => compare atom.operator actual atom.expected

end Evaluation

/-! ## Compound conditions -/

/-- The loop of the splitter: characters of a separator still to be skipped,
whether it is inside quotes, and the current part. -/
def splitLoop (separator : List Char) : Nat → Bool → List Char → List Char → List String
  | _, _, current, [] => [String.ofList (Text.trim current)]
  | skip + 1, inQuote, current, _ :: rest => splitLoop separator skip inQuote current rest
  | 0, inQuote, current, character :: rest =>
      if character = '\'' then
        splitLoop separator 0 (!inQuote) (current ++ [character]) rest
      else if !inQuote && separator.isPrefixOf (character :: rest) then
        String.ofList (Text.trim current) ::
          splitLoop separator (separator.length - 1) inQuote [] rest
      else splitLoop separator 0 inQuote (current ++ [character]) rest

def splitOutsideQuotes (expr separator : String) : List String :=
  splitLoop separator.toList 0 false [] expr.toList

section Compound

variable (serde : SerdeJson) (nodeOutputs : NodeOutputs)

def evaluateAndAtoms : List String → Except OutputRefError EvaluationResult
  | [] => .ok parsedTrue
  | atom :: rest => do
      let eval ← evaluateAtom serde nodeOutputs atom
      if !eval.parsed then return unparsed
      if !eval.result then return parsedFalse
      evaluateAndAtoms rest

def evaluateOrClauses : List String → Except OutputRefError EvaluationResult
  | [] => .ok parsedFalse
  | clause :: rest => do
      let eval ← evaluateAndAtoms serde nodeOutputs (splitOutsideQuotes clause "&&")
      if !eval.parsed then return unparsed
      if eval.result then return parsedTrue
      evaluateOrClauses rest

def evaluateCondition (expr : String) : Except OutputRefError EvaluationResult :=
  evaluateOrClauses serde nodeOutputs (splitOutsideQuotes expr.trimmed "||")

end Compound

/-! ## Errors of conditions

The evaluation of a condition fails exactly when it reaches, from left to right
and under short circuit, a reference to a field that cannot be resolved. -/

def Atom.fieldReference (atom : Atom) : Option String :=
  if atom.segment1 = "output" then atom.segment2
  else
    match atom.segment2 with
    | some _ => none
    | none => some atom.segment1

def ReachesFailure (evaluate : String → Except OutputRefError EvaluationResult)
    (passing : EvaluationResult) (items : List String) : Prop :=
  ∃ before item after, items = before ++ item :: after ∧
    (∀ earlier ∈ before, evaluate earlier = .ok passing) ∧
    ∃ error, evaluate item = .error error

theorem reachesFailure_cons_of_passing {rest : List String} (passes : evaluate item = .ok passing) :
    ReachesFailure evaluate passing (item :: rest) ↔ ReachesFailure evaluate passing rest := by
  constructor
  · rintro ⟨before, failing, after, split, earlier, error, failed⟩
    cases before with
    | nil =>
        cases split
        rw [passes] at failed
        cases failed
    | cons first before =>
        cases split
        exact ⟨before, failing, after, rfl,
          fun other member => earlier other (List.mem_cons_of_mem _ member), error, failed⟩
  · rintro ⟨before, failing, after, rfl, earlier, failed⟩
    refine ⟨item :: before, failing, after, rfl, ?_, failed⟩
    intro other member
    rcases List.mem_cons.mp member with rfl | later
    · exact passes
    · exact earlier other later

theorem not_reachesFailure_cons {rest : List String} (ends : evaluate item = .ok result)
    (different : result ≠ passing) : ¬ReachesFailure evaluate passing (item :: rest) := by
  rintro ⟨before, failing, after, split, earlier, error, failed⟩
  cases before with
  | nil =>
      cases split
      rw [ends] at failed
      cases failed
  | cons first before =>
      cases split
      have passes := earlier item List.mem_cons_self
      rw [ends] at passes
      exact different (Except.ok.inj passes)

section Errors

variable (serde : SerdeJson) (nodeOutputs : NodeOutputs)

def UnresolvableAtom (text : String) : Prop :=
  ∃ atom, parseAtom (Text.trim text.toList) = some atom ∧
    ∃ field nodeOutput error, atom.fieldReference = some field ∧
      nodeOutputs.lookup atom.nodeId = some nodeOutput ∧
      resolveNodeOutputField serde nodeOutput atom.nodeId field = .error error

def ReachesUnresolvable (expr : String) : Prop :=
  ∃ before clause after,
    splitOutsideQuotes expr.trimmed "||" = before ++ clause :: after ∧
    (∀ earlier ∈ before,
      evaluateAndAtoms serde nodeOutputs (splitOutsideQuotes earlier "&&") = .ok parsedFalse) ∧
    ∃ atomsBefore atom atomsAfter,
      splitOutsideQuotes clause "&&" = atomsBefore ++ atom :: atomsAfter ∧
      (∀ earlier ∈ atomsBefore, evaluateAtom serde nodeOutputs earlier = .ok parsedTrue) ∧
      UnresolvableAtom serde nodeOutputs atom

variable {serde nodeOutputs}

theorem resolveOutputRef_error_iff {nodeId : String} {field : Option String} :
    (∃ error, resolveOutputRef serde nodeOutputs nodeId field = .error error) ↔
      ∃ name nodeOutput error, field = some name ∧
        nodeOutputs.lookup nodeId = some nodeOutput ∧
        resolveNodeOutputField serde nodeOutput nodeId name = .error error := by
  rw [resolveOutputRef]
  cases found : nodeOutputs.lookup nodeId with
  | none => simp
  | some nodeOutput =>
      cases field with
      | none => simp
      | some name =>
          cases resolved : resolveNodeOutputField serde nodeOutput nodeId name with
          | error error => simp [Except.map, resolved]
          | ok resolution => simp [Except.map, resolved]

theorem evaluateAtom_error_iff {text : String} :
    (∃ error, evaluateAtom serde nodeOutputs text = .error error) ↔
      UnresolvableAtom serde nodeOutputs text := by
  have errorOfMap : ∀ (resolved : Except OutputRefError String)
      (result : String → EvaluationResult),
      (∃ error, resolved.map result = .error error) ↔ ∃ error, resolved = .error error := by
    intro resolved result
    cases resolved <;> simp [Except.map]
  rw [evaluateAtom, UnresolvableAtom]
  cases parsed : parseAtom (Text.trim text.toList) with
  | none => simp
  | some atom =>
      simp only [Option.some.injEq, exists_eq_left', Atom.fieldReference]
      by_cases output : atom.segment1 = "output"
      · rw [if_pos output, if_pos output, errorOfMap, resolveOutputRef_error_iff]
      · rw [if_neg output, if_neg output]
        cases second : atom.segment2 with
        | some segment => simp
        | none =>
            simp only [errorOfMap, resolveOutputRef_error_iff]

theorem evaluateAndAtoms_error_iff {atoms : List String} :
    (∃ error, evaluateAndAtoms serde nodeOutputs atoms = .error error) ↔
      ReachesFailure (evaluateAtom serde nodeOutputs) parsedTrue atoms := by
  induction atoms with
  | nil => simp [evaluateAndAtoms, ReachesFailure]
  | cons atom rest induction =>
      cases evaluated : evaluateAtom serde nodeOutputs atom with
      | error error =>
          have failed : evaluateAndAtoms serde nodeOutputs (atom :: rest) = .error error := by
            rw [evaluateAndAtoms, evaluated]
            rfl
          exact iff_of_true ⟨error, failed⟩ ⟨[], atom, rest, rfl, nofun, error, evaluated⟩
      | ok result =>
          rw [evaluateAndAtoms, evaluated]
          rcases result with ⟨_ | _, _ | _⟩
          · exact iff_of_false nofun (not_reachesFailure_cons evaluated (by decide))
          · exact iff_of_false nofun (not_reachesFailure_cons evaluated (by decide))
          · exact iff_of_false nofun (not_reachesFailure_cons evaluated (by decide))
          · exact induction.trans (reachesFailure_cons_of_passing evaluated).symm

theorem evaluateOrClauses_error_iff {clauses : List String} :
    (∃ error, evaluateOrClauses serde nodeOutputs clauses = .error error) ↔
      ReachesFailure
        (fun clause => evaluateAndAtoms serde nodeOutputs (splitOutsideQuotes clause "&&"))
        parsedFalse clauses := by
  induction clauses with
  | nil => simp [evaluateOrClauses, ReachesFailure]
  | cons clause rest induction =>
      cases evaluated :
          evaluateAndAtoms serde nodeOutputs (splitOutsideQuotes clause "&&") with
      | error error =>
          have failed : evaluateOrClauses serde nodeOutputs (clause :: rest) = .error error := by
            rw [evaluateOrClauses, evaluated]
            rfl
          exact iff_of_true ⟨error, failed⟩ ⟨[], clause, rest, rfl, nofun, error, evaluated⟩
      | ok result =>
          rw [evaluateOrClauses, evaluated]
          rcases result with ⟨_ | _, _ | _⟩
          · exact iff_of_false nofun (not_reachesFailure_cons evaluated (by decide))
          · exact induction.trans (reachesFailure_cons_of_passing evaluated).symm
          · exact iff_of_false nofun (not_reachesFailure_cons evaluated (by decide))
          · exact iff_of_false nofun (not_reachesFailure_cons evaluated (by decide))

theorem evaluateCondition_error_iff {expr : String} :
    (∃ error, evaluateCondition serde nodeOutputs expr = .error error) ↔
      ReachesUnresolvable serde nodeOutputs expr := by
  rw [evaluateCondition, evaluateOrClauses_error_iff]
  simp only [ReachesFailure, ReachesUnresolvable, evaluateAndAtoms_error_iff,
    evaluateAtom_error_iff]

end Errors

/-! ## What a condition reads -/

section Congruence

variable {left right : NodeOutputs} (same : ∀ id, left.lookup id = right.lookup id)
  (serde : SerdeJson)

include same

theorem resolveOutputRef_congr (nodeId : String) (field : Option String) :
    resolveOutputRef serde left nodeId field = resolveOutputRef serde right nodeId field := by
  unfold resolveOutputRef
  rw [same]

theorem evaluateAtom_congr (expr : String) :
    evaluateAtom serde left expr = evaluateAtom serde right expr := by
  unfold evaluateAtom
  simp only [resolveOutputRef_congr same]

theorem evaluateAndAtoms_congr (atoms : List String) :
    evaluateAndAtoms serde left atoms = evaluateAndAtoms serde right atoms := by
  induction atoms with
  | nil => rfl
  | cons atom rest induction =>
      unfold evaluateAndAtoms
      rw [evaluateAtom_congr same, induction]

theorem evaluateOrClauses_congr (clauses : List String) :
    evaluateOrClauses serde left clauses = evaluateOrClauses serde right clauses := by
  induction clauses with
  | nil => rfl
  | cons clause rest induction =>
      unfold evaluateOrClauses
      rw [evaluateAndAtoms_congr same, induction]

theorem evaluateCondition_congr (expr : String) :
    evaluateCondition serde left expr = evaluateCondition serde right expr :=
  evaluateOrClauses_congr same serde _

end Congruence

end ConditionEvaluator

end HarnessAgent
