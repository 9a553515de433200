import HarnessAgent.Foundation.Text
import HarnessAgent.Schema.WorkflowRun
import Mathlib.Data.List.AList

/-! # Subprocesses of nodes

The command line of a bash or script node, the ways in which it can end, and
the output of the node in each of them.
-/

namespace HarnessAgent

abbrev EnvVars := AList (fun _ : String => String)

structure SubprocessCall where
  command : String
  arguments : List String
  timeoutMs : Nat
  envOverlay : EnvVars

inductive SpawnErrorKind
  | notFound
  | permissionDenied
  | other (name : String)
  deriving DecidableEq, Repr

inductive SubprocessOutcome
  | success (stdout stderr : String)
  | timedOut
  | spawnFailed (kind : SpawnErrorKind)
  | failed (exitCode : Option Int) (stderr : String)
  deriving DecidableEq, Repr

def subprocessDefaultTimeout : Nat := 120000

def subprocessErrorMaxChars : Nat := 2000

/-- The last code units of a text, or nothing if it is short enough. -/
def utf16Tail (text : String) (max : Nat) : Option String :=
  let units := (text.toList.map Text.utf16Length).sum
  if units ≤ max then none
  else some (String.ofList (Text.dropUtf16 (units - max) text.toList))

example : utf16Tail "ab😀" 2 = some "😀" := by decide

structure RawSubprocessError where
  message : Option String := none
  stderr : Option String := none
  code : Option String := none
  deriving DecidableEq, Repr

/-- The message for a failed subprocess. The first line of a message with the
prefix names the command and is left out. -/
def formatSubprocessFailure (error : RawSubprocessError) (label : String) : String :=
  let stderr := (error.stderr.getD "").trimmed
  let rawMessage := (error.message.getD "").trimmed
  let isPrefixed := "Command failed:".toList.isPrefixOf rawMessage.toList
  let bodyAfterPrefix :=
    if isPrefixed then
      (String.ofList ((rawMessage.toList.dropWhile (· != '\n')).drop 1)).trimmed
    else rawMessage
  let diagnostic :=
    if stderr ≠ "" then stderr
    else if bodyAfterPrefix ≠ "" then bodyAfterPrefix
    else if isPrefixed then "no diagnostic output"
    else "unknown error"
  let truncated :=
    match utf16Tail diagnostic subprocessErrorMaxChars with
    | some tail => tail ++ "\n…[truncated]"
    | none => diagnostic
  let exitSuffix :=
    match error.code with
    | some code => " [exit " ++ code ++ "]"
    | none => ""
  label ++ " failed" ++ exitSuffix ++ ": " ++ truncated

def behindFirstLine (text : List Char) : List Char :=
  (text.dropWhile (· != '\n')).drop 1

def truncated (diagnostic : String) : String :=
  match utf16Tail diagnostic subprocessErrorMaxChars with
  | some tail => tail ++ "\n…[truncated]"
  | none => diagnostic

def failureText (label : String) (code : Option String) (diagnostic : String) : String :=
  let exitSuffix :=
    match code with
    | some code => " [exit " ++ code ++ "]"
    | none => ""
  label ++ " failed" ++ exitSuffix ++ ": " ++ truncated diagnostic

def diagnosticOf (error : RawSubprocessError) : String :=
  let stderr := (error.stderr.getD "").trimmed
  let rawMessage := (error.message.getD "").trimmed
  let isPrefixed := "Command failed:".toList.isPrefixOf rawMessage.toList
  let bodyAfterPrefix :=
    if isPrefixed then (String.ofList (behindFirstLine rawMessage.toList)).trimmed
    else rawMessage
  if stderr ≠ "" then stderr
  else if bodyAfterPrefix ≠ "" then bodyAfterPrefix
  else if isPrefixed then "no diagnostic output"
  else "unknown error"

theorem formatSubprocessFailure_eq (error : RawSubprocessError) (label : String) :
    formatSubprocessFailure error label = failureText label error.code (diagnosticOf error) := by
  delta formatSubprocessFailure failureText truncated diagnosticOf behindFirstLine
  dsimp only

def NodeOutput.failure (error : String) : NodeOutput :=
  .failed "" none error none none

def stripNewline (text : String) : String :=
  match text.toList.reverse with
  | '\n' :: rest => String.ofList rest.reverse
  | _ => text

def subprocessOutput (label executable : String) (call : SubprocessCall) :
    SubprocessOutcome → NodeOutput
  | .success stdout _ => .completed (stripNewline stdout) none none none
  | .timedOut => .failure (label ++ " timed out after " ++ toString call.timeoutMs ++ "ms")
  | .spawnFailed .notFound =>
      .failure (label ++ " failed: " ++ executable ++ " executable not found in PATH")
  | .spawnFailed .permissionDenied =>
      .failure (label ++ " failed: permission denied (check cwd permissions)")
  | .spawnFailed (.other name) =>
      .failure (label ++ " failed: spawn error (" ++ name ++ ")")
  | .failed exitCode stderr =>
      .failure (formatSubprocessFailure
        { message := some
            ("Command failed: " ++ " ".intercalate (call.command :: call.arguments)),
          stderr := some stderr,
          code := exitCode.map toString }
        label)

end HarnessAgent
