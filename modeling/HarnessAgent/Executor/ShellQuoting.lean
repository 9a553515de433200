import HarnessAgent.Executor.Substitution
import HarnessAgent.Foundation.ShellWord

/-! # Values as words of a shell

A short value stands in a script between quotes, a long one as a command that reads it
from a file. The first way denotes the value as one word. The second one does so only for
values that the shell neither splits nor matches against paths.
-/

namespace HarnessAgent

open ShellWord

theorem shellQuote_eq (value : String) :
    shellQuote value = String.ofList (enclosed value.toList) := by
  apply String.toList_inj.mp
  rw [String.toList_ofList, enclosed, ← Text.replaceLoop_singleton]
  simp [shellQuote, String.substituted]

def outputPath (directory nodeId : String) (field : Option String) : String :=
  joinPath directory
    (match field with
    | some field => nodeId ++ "." ++ field ++ ".nodeoutput"
    | none => nodeId ++ ".nodeoutput")

def StandsInline (canWrite : String → Bool) (value nodeId : String) (field : Option String)
    (outputFileDir : Option String) : Prop :=
  ∀ directory ∈ outputFileDir, nodeOutputFileThreshold < value.utf8ByteSize →
    canWrite (outputPath directory nodeId field) = false

section Replacements

variable {canWrite : String → Bool} {value nodeId : String} {field outputFileDir : Option String}

theorem shellQuoteOrFile_some (directory : String) :
    shellQuoteOrFile canWrite value nodeId field (some directory) =
      if nodeOutputFileThreshold < value.utf8ByteSize then
        if canWrite (outputPath directory nodeId field) then
          { text := "$(cat " ++ shellQuote (outputPath directory nodeId field) ++ ")",
            file := some (outputPath directory nodeId field, value) }
        else { text := shellQuote value }
      else { text := shellQuote value } :=
  rfl

theorem shellQuoteOrFile_inline
    (inline : StandsInline canWrite value nodeId field outputFileDir) :
    shellQuoteOrFile canWrite value nodeId field outputFileDir = { text := shellQuote value } := by
  cases outputFileDir with
  | none => rfl
  | some directory =>
      rw [shellQuoteOrFile_some]
      split
      · next long => rw [inline directory rfl long, if_neg Bool.false_ne_true]
      · rfl

theorem shellQuoteOrFile_offloaded
    (offloaded : ¬StandsInline canWrite value nodeId field outputFileDir) :
    nodeOutputFileThreshold < value.utf8ByteSize ∧
      ∃ path, shellQuoteOrFile canWrite value nodeId field outputFileDir =
        { text := String.ofList (reading path), file := some (path, value) } := by
  simp only [StandsInline, not_forall, Bool.not_eq_false] at offloaded
  rcases offloaded with ⟨directory, given, long, writable⟩
  cases given
  refine ⟨long, outputPath directory nodeId field, ?_⟩
  have quoted : (shellQuote (outputPath directory nodeId field)).toList =
      enclosed (outputPath directory nodeId field).toList := by
    rw [shellQuote_eq, String.toList_ofList]
  have shown : "$(cat " ++ shellQuote (outputPath directory nodeId field) ++ ")" =
      String.ofList (reading (outputPath directory nodeId field)) := by
    apply String.toList_inj.mp
    rw [String.toList_append, String.toList_append, quoted]
    exact String.toList_ofList.symm
  rw [shellQuoteOrFile_some, if_pos long, if_pos writable, shown]

end Replacements

def Denotes (surroundings : Surroundings) (replacement : Replacement) (value : String) : Prop :=
  expandWord (surroundings.writing replacement.file) replacement.text = some [value]

/-- A value in quotes denotes itself. A value in a file does so exactly if it has no
blanks and no NUL, and is no pattern that matches a path. -/
theorem shellQuoteOrFile_denotes_iff (surroundings : Surroundings) (canWrite : String → Bool)
    (value nodeId : String) (field outputFileDir : Option String) :
    Denotes surroundings (shellQuoteOrFile canWrite value nodeId field outputFileDir) value ↔
      StandsInline canWrite value nodeId field outputFileDir ∨
        (∀ character ∈ value.toList, ¬IsLost character) ∧ Inert surroundings value.toList := by
  by_cases inline : StandsInline canWrite value nodeId field outputFileDir
  · apply iff_of_true _ (.inl inline)
    rw [Denotes, shellQuoteOrFile_inline inline, shellQuote_eq]
    exact expandWord_enclosed _ value
  · rcases shellQuoteOrFile_offloaded inline with ⟨long, path, replaced⟩
    have large : 4096 ≤ value.utf8ByteSize := by
      rw [nodeOutputFileThreshold] at long
      omega
    rw [Denotes, replaced, expandWord_reading _ (surroundings.lookup_writing path value),
      Option.some.injEq, fields_captured_iff _ large, or_iff_right inline]
    rfl

theorem utf8ByteSize_replicate (count : Nat) :
    (String.ofList (List.replicate count 'x')).utf8ByteSize = count := by
  induction count with
  | zero => rfl
  | succ count induction =>
      have first : String.ofList (List.replicate (count + 1) 'x') =
          "x" ++ String.ofList (List.replicate count 'x') := by
        apply String.toList_inj.mp
        simp [List.replicate_succ]
      rw [first, String.utf8ByteSize_append, induction, Nat.add_comm]
      rfl

theorem not_denotes_blank :
    ¬∀ (surroundings : Surroundings) (canWrite : String → Bool) (value nodeId : String)
        (field outputFileDir : Option String),
      Denotes surroundings (shellQuoteOrFile canWrite value nodeId field outputFileDir) value := by
  intro all
  generalize shown : "a " ++ String.ofList (List.replicate 32768 'x') = output
  have size : output.utf8ByteSize = 32770 := by
    rw [← shown, String.utf8ByteSize_append, utf8ByteSize_replicate]
    rfl
  have blank : ' ' ∈ output.toList := by
    rw [← shown, String.toList_append]
    exact List.mem_append_left _ (by decide)
  have denotes := all { files := [], paths := fun _ => [], short := fun _ _ wrong => by cases wrong }
    (fun _ => true) output "build" none (some "/logs")
  have offloaded : ¬StandsInline (fun _ => true) output "build" none (some "/logs") := by
    intro inline
    have long : nodeOutputFileThreshold < output.utf8ByteSize := by
      rw [size, nodeOutputFileThreshold]
      omega
    cases inline "/logs" rfl long
  rcases shellQuoteOrFile_offloaded offloaded with ⟨long, path, replaced⟩
  rw [Denotes, replaced, expandWord_reading _ (Surroundings.lookup_writing _ path output),
    Option.some.injEq, fields_captured_iff _ (by omega)] at denotes
  exact denotes.1 ' ' blank (.inl rfl)

end HarnessAgent
