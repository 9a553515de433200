import HarnessAgent.Foundation.Text
import HarnessAgent.Schema.WorkflowRun

/-! # References to node outputs

Resolution of a field of a node's output, shared by substitution into texts and
by conditions. A reference that cannot be honored is an error with a reason.
-/

namespace HarnessAgent

inductive OutputRefErrorReason
  | notInSchema
  | unparseable
  | missingKey
  | producerNotRun
  deriving DecidableEq, Repr

structure OutputRefError where
  nodeId : String
  field : String
  reason : OutputRefErrorReason
  deriving DecidableEq, Repr

def OutputRefError.message (error : OutputRefError) : String :=
  let reference := "$" ++ error.nodeId ++ ".output." ++ error.field
  match error.reason with
  | .notInSchema =>
      "'" ++ reference ++ "' references field '" ++ error.field ++
        "', which is not declared in node '" ++ error.nodeId ++
        "'s output_format schema. Add '" ++ error.field ++
        "' to the schema (and mark it optional if it can be absent), or fix the reference."
  | .unparseable =>
      "'" ++ reference ++ "' references field '" ++ error.field ++ "', but node '" ++
        error.nodeId ++ "'s output is not a JSON object, so the field cannot be read. " ++
        "Emit JSON containing '" ++ error.field ++ "', or reference '$" ++ error.nodeId ++
        ".output' (whole text) instead."
  | .missingKey =>
      "'" ++ reference ++ "' references field '" ++ error.field ++ "', but node '" ++
        error.nodeId ++ "'s JSON output has no such key. Emit '" ++ error.field ++
        "' in the output, or fix the reference."
  | .producerNotRun =>
      "'" ++ reference ++ "' references field '" ++ error.field ++ "', but node '" ++
        error.nodeId ++ "' did not run (skipped or pending), so it has no output to read. " ++
        "Guard this reference with a 'when:' condition, or fix the dependency."

inductive FieldResolution
  | value (value : Value)
  | empty
  deriving DecidableEq, Repr

namespace Reference

def isStart (character : Char) : Bool :=
  Text.isAsciiLetter character || character == '_'

def isFieldPart (character : Char) : Bool :=
  isStart character || Text.isAsciiDigit character

def isNodeIdPart (character : Char) : Bool :=
  isFieldPart character || character == '-'

def nodeId (text : List Char) : Option (List Char × List Char) :=
  Text.identifier isStart isNodeIdPart text

def field (text : List Char) : Option (List Char × List Char) :=
  Text.identifier isStart isFieldPart text

def IsNodeId (name : String) : Prop :=
  nodeId name.toList = some (name.toList, [])

def IsField (name : String) : Prop :=
  field name.toList = some (name.toList, [])

end Reference

/-! ## Code fences

The pattern for a fenced block prefers the first opening fence, the longest run
of white space after it, and the shortest content before a closing fence. -/

namespace Fence

def mark : List Char := ['`', '`', '`']

/-- What follows each newline in the leading white space, the last newline
first. -/
def afterNewlines : List Char → List (List Char)
  | [] => []
  | character :: rest =>
      if Text.isWhitespace character then
        afterNewlines rest ++ (if character = '\n' then [rest] else [])
      else []

/-- Whether a closing fence follows, after optional white space. -/
def closes (text : List Char) : Bool :=
  (Text.afterLiteral mark (text.dropWhile Text.isWhitespace)).isSome

/-- The shortest content that is followed by a newline and a closing fence. -/
def content : List Char → Option (List Char)
  | [] => none
  | character :: rest =>
      if character = '\n' && closes rest then some []
      else (content rest).map (character :: ·)

def block (text : List Char) : Option (List Char) :=
  let tagged := (Text.afterLiteral ['j', 's', 'o', 'n'] text).toList ++ [text]
  (tagged.flatMap afterNewlines).findSome? content

def capture (text : List Char) : Option (List Char) :=
  text.tails.findSome? fun suffix => (Text.afterLiteral mark suffix).bind block

example : capture "Result:\n```json\n{}\n```\n".toList = some "{}".toList := by decide

end Fence

section Resolution

variable (serde : SerdeJson)

def parseOutputObject (text : String) : Option Members :=
  if text = "" then none
  else
    let candidate :=
      match Fence.capture text.toList with
      | some fenced => String.ofList fenced
      | none => text
    (serde.fromStr candidate).bind Value.asObject

def resolveSettledField (nodeOutput : NodeOutput) (nodeId field : String) :
    Except OutputRefError FieldResolution :=
  let structured := nodeOutput.structuredOutput.bind Value.asObject
  match nodeOutput.declaredFields with
  | some declared =>
      if field ∉ declared then .error { nodeId, field, reason := .notInSchema }
      else
        match structured.or (parseOutputObject serde nodeOutput.output) with
        | none => .ok .empty
        | some members =>
            match members.get field with
            | none => .ok .empty
            | some .null => .ok .empty
            | some value => .ok (.value value)
  | none =>
      match structured with
      | some members =>
          match members.get field with
          | none => .ok .empty
          | some value => .ok (.value value)
      | none =>
          match parseOutputObject serde nodeOutput.output with
          | none => .error { nodeId, field, reason := .unparseable }
          | some members =>
              match members.get field with
              | none => .error { nodeId, field, reason := .missingKey }
              | some value => .ok (.value value)

def resolveNodeOutputField (nodeOutput : NodeOutput) (nodeId field : String) :
    Except OutputRefError FieldResolution :=
  match nodeOutput.state with
  | .skipped | .pending => .error { nodeId, field, reason := .producerNotRun }
  | .completed | .running | .failed => resolveSettledField serde nodeOutput nodeId field

variable {serde}

theorem error_names {nodeId field : String}
    (failed : resolveNodeOutputField serde nodeOutput nodeId field = .error error) :
    error.nodeId = nodeId ∧ error.field = field := by
  revert failed
  fun_cases resolveNodeOutputField serde nodeOutput nodeId field
  case case3 | case4 | case5 =>
    fun_cases resolveSettledField serde nodeOutput nodeId field
    all_goals
      intro failed
      cases failed
    all_goals exact ⟨rfl, rfl⟩
  all_goals
    intro failed
    cases failed
    exact ⟨rfl, rfl⟩

end Resolution

def declaredFieldsFromSchema (outputFormat : Option Value) : Option (List String) := do
  let format ← outputFormat
  let properties ← format.get "properties"
  let members ← properties.asObject
  return members.keys

end HarnessAgent
