import HarnessAgent.Foundation.Framing
import HarnessAgent.Foundation.Json
import HarnessAgent.Foundation.Utf8

/-! # Line-framed JSON

The reader of a subprocess's standard output: one JSON value a line, from bytes
that arrive in chunks. Lines that are not valid UTF-8 are skipped, empty lines are
not even counted, and what is left at the end is read as a last line.
-/

namespace HarnessAgent

namespace NdjsonStream

open Framing

variable {ε : Type}

inductive Item (ε : Type)
  | value (value : Value)
  | io (message : String)
  | parseError (lineNo : Nat) (line : String) (source : ε)

structure Progress (ε : Type) where
  lineNo : Nat
  items : List (Item ε)

def stripLineEnd (rawLine : List UInt8) : List UInt8 :=
  if [13, 10].isSuffixOf rawLine then rawLine.take (rawLine.length - 2)
  else if [10].isSuffixOf rawLine then rawLine.take (rawLine.length - 1)
  else rawLine

variable (fromStr : String → Except ε Value)

def parseLine (lineNo : Nat) (line : String) : Item ε :=
  match fromStr line with
  | .ok value => .value value
  | .error source => .parseError lineNo line source

/-- The body of the loop over complete lines. -/
def takeLine (progress : Progress ε) (rawLine : List UInt8) : Progress ε :=
  let lineBytes := stripLineEnd rawLine
  if lineBytes.isEmpty then progress
  else
    let lineNo := progress.lineNo + 1
    match Text.fromUtf8 lineBytes with
    | none => { progress with lineNo }
    | some line =>
        { lineNo, items := progress.items ++ [parseLine fromStr lineNo (String.ofList line)] }

def cutLine (buffer : List UInt8) : Decoded Empty UInt8 (List UInt8) :=
  match cut [10] buffer with
  | none => .more
  | some (line, rest) => .frame (line ++ [10]) rest

def lineDecoder : Decoder Empty UInt8 (List UInt8) where
  decode := cutLine
  shrinks := by
    intro buffer line rest decoded
    simp only [cutLine] at decoded
    split at decoded
    · cases decoded
    · next found =>
        cases decoded
        rw [append_of_cut found]
        simp only [List.length_append, List.length_cons]
        omega
  frame_append := by
    intro buffer line rest later decoded
    simp only [cutLine] at decoded ⊢
    split at decoded
    · cases decoded
    · next found =>
        cases decoded
        rw [cut_append later found]
  failed_append := by
    intro buffer error
    exact error.elim

structure State (ε : Type) where
  buffer : List UInt8
  progress : Progress ε

def initial : State ε := ⟨[], 0, []⟩

/-- A decoder that cannot fail always leaves a buffer. -/
def restOf (drained : Drained Empty UInt8 (List UInt8)) : List UInt8 :=
  match drained.ending with
  | .ok rest => rest
  | .error impossible => nomatch impossible

def takeChunk (state : State ε) (chunk : List UInt8) : State ε :=
  let drained := lineDecoder.drain (state.buffer ++ chunk)
  ⟨restOf drained, drained.items.foldl (takeLine fromStr) state.progress⟩

/-- What is left at the end of the stream is a line without a line feed. -/
def finish (state : State ε) : List (Item ε) :=
  if state.buffer.isEmpty then state.progress.items
  else
    let lineNo := state.progress.lineNo + 1
    match Text.fromUtf8 state.buffer with
    | none => state.progress.items
    | some line =>
        let line := Text.trim line
        if line.isEmpty then state.progress.items
        else state.progress.items ++ [parseLine fromStr lineNo (String.ofList line)]

/-- The items of a byte stream that ends, or fails, after some chunks. -/
def run (state : State ε) : List (Except String (List UInt8)) → List (Item ε)
  | [] => finish fromStr state
  | .error message :: _ => state.progress.items ++ [.io message]
  | .ok chunk :: rest => run (takeChunk fromStr state chunk) rest

def fromByteStream (chunks : List (Except String (List UInt8))) : List (Item ε) :=
  run fromStr initial chunks

variable (drained : Drained Empty UInt8 (List UInt8))

theorem ending_eq_restOf : drained.ending = .ok (restOf drained) := by
  unfold restOf
  split
  · assumption
  · next impossible _ => exact impossible.elim

def stateOf (drained : Drained Empty UInt8 (List UInt8)) : State ε :=
  ⟨restOf drained, drained.items.foldl (takeLine fromStr) ⟨0, []⟩⟩

theorem takeChunk_stateOf (chunk : List UInt8) :
    takeChunk fromStr (stateOf fromStr drained) chunk =
      stateOf fromStr (lineDecoder.feed drained chunk) := by
  have fed : lineDecoder.feed drained chunk =
      (lineDecoder.drain (restOf drained ++ chunk)).after drained.items := by
    rw [Decoder.feed, ending_eq_restOf]
  rw [fed]
  simp only [takeChunk, stateOf, Drained.after, List.foldl_append]
  rfl

theorem run_stateOf (chunks : List (List UInt8)) :
    run fromStr (stateOf fromStr drained) (chunks.map .ok) =
      finish fromStr (stateOf fromStr (chunks.foldl lineDecoder.feed drained)) := by
  induction chunks generalizing drained with
  | nil => rfl
  | cons chunk rest induction =>
      rw [List.map_cons, run, takeChunk_stateOf, induction, List.foldl_cons]

theorem fromByteStream_eq (chunks : List (List UInt8)) :
    fromByteStream fromStr (chunks.map .ok) =
      finish fromStr (stateOf fromStr (lineDecoder.drain chunks.flatten)) := by
  have start : (initial : State ε) = stateOf fromStr (lineDecoder.drain []) := by
    rw [Decoder.drain_of_more rfl]
    rfl
  rw [fromByteStream, start, run_stateOf]
  congr 2
  exact Decoder.feedAll_eq_drain lineDecoder chunks

inductive LineEnd
  | lf
  | crlf

def LineEnd.bytes : LineEnd → List UInt8
  | .lf => [10]
  | .crlf => [13, 10]

structure Line where
  content : Option (String × Value)
  lineEnd : LineEnd

def contentBytes : Option (String × Value) → List UInt8
  | none => []
  | some (text, _) => Text.utf8 text.toList

def Line.bytes (line : Line) : List UInt8 :=
  contentBytes line.content ++ line.lineEnd.bytes

structure Document where
  lines : List Line
  last : Option (String × Value)

def Document.bytes (document : Document) : List UInt8 :=
  (document.lines.map Line.bytes).flatten ++ contentBytes document.last

def Document.entries (document : Document) : List (String × Value) :=
  document.lines.filterMap Line.content ++ document.last.toList

/-- A text that the JSON library reads as the value. Like every compact rendering
it has no control characters and no white space around it. -/
structure Renders (text : String) (value : Value) : Prop where
  parses : fromStr text = .ok value
  oneLine : ∀ character ∈ text.toList, 0x20 ≤ character.toNat
  tight : Text.trim text.toList = text.toList
  shown : text.toList ≠ []

variable {fromStr}

theorem Renders.not_mem_utf8 (renders : Renders fromStr text value) (control : byte.toNat < 0x20) :
    byte ∉ Text.utf8 text.toList := by
  intro member
  obtain ⟨character, listed, code⟩ := Text.mem_of_mem_utf8 member (by omega)
  have visible := renders.oneLine character listed
  omega

theorem Renders.not_mem_contentBytes (renders : ∀ entry ∈ content, Renders fromStr entry.1 entry.2)
    (control : byte.toNat < 0x20) : byte ∉ contentBytes content := by
  cases content with
  | none => simp [contentBytes]
  | some entry => exact (renders entry rfl).not_mem_utf8 control

theorem cutLine_bytes {line : Line}
    (renders : ∀ entry ∈ line.content, Renders fromStr entry.1 entry.2) (rest : List UInt8) :
    lineDecoder.decode (line.bytes ++ rest) = .frame line.bytes rest := by
  have absent : (10 : UInt8) ∉ contentBytes line.content :=
    Renders.not_mem_contentBytes renders (by decide)
  obtain ⟨before, whole, absentBefore⟩ : ∃ before, line.bytes = before ++ [10] ∧
      (10 : UInt8) ∉ before := by
    cases ended : line.lineEnd with
    | lf => exact ⟨contentBytes line.content, by simp [Line.bytes, ended, LineEnd.bytes], absent⟩
    | crlf =>
        refine ⟨contentBytes line.content ++ [13], ?_, ?_⟩
        · simp [Line.bytes, ended, LineEnd.bytes]
        · simp [absent]
  have found : cut [10] (before ++ [10] ++ rest) = some (before, rest) :=
    cut_of_not_mem absentBefore rest
  show cutLine (line.bytes ++ rest) = _
  rw [whole, cutLine, found]

theorem stripLineEnd_bytes {line : Line}
    (renders : ∀ entry ∈ line.content, Renders fromStr entry.1 entry.2) :
    stripLineEnd line.bytes = contentBytes line.content := by
  have absent : (13 : UInt8) ∉ contentBytes line.content :=
    Renders.not_mem_contentBytes renders (by decide)
  cases ended : line.lineEnd with
  | crlf =>
      have ends : [13, 10].isSuffixOf (contentBytes line.content ++ [13, 10]) = true :=
        List.isSuffixOf_iff_suffix.mpr (List.suffix_append _ _)
      simp [stripLineEnd, Line.bytes, ended, LineEnd.bytes, ends]
  | lf =>
      have fed : [10].isSuffixOf (contentBytes line.content ++ [10]) = true :=
        List.isSuffixOf_iff_suffix.mpr (List.suffix_append _ _)
      have other : ¬ [13, 10].isSuffixOf (contentBytes line.content ++ [10]) = true := by
        intro ends
        have returns := (List.isSuffixOf_iff_suffix.mp ends).subset List.mem_cons_self
        simp [absent] at returns
      simp [stripLineEnd, Line.bytes, ended, LineEnd.bytes, fed, other]

def valueItems (entries : List (String × Value)) : List (Item ε) :=
  entries.map fun entry => .value entry.2

theorem takeLine_bytes {line : Line}
    (renders : ∀ entry ∈ line.content, Renders fromStr entry.1 entry.2) (progress : Progress ε) :
    (takeLine fromStr progress line.bytes).items =
      progress.items ++ valueItems line.content.toList := by
  simp only [takeLine, stripLineEnd_bytes renders]
  cases content : line.content with
  | none => simp [contentBytes, valueItems]
  | some entry =>
      have rendered := renders entry content
      have shown : (Text.utf8 entry.1.toList).isEmpty = false := by
        simpa using Text.utf8_ne_nil rendered.shown
      simp [contentBytes, shown, valueItems, parseLine, rendered.parses]

theorem foldl_takeLine_bytes {lines : List Line}
    (renders : ∀ line ∈ lines, ∀ entry ∈ line.content, Renders fromStr entry.1 entry.2)
    (progress : Progress ε) :
    ((lines.map Line.bytes).foldl (takeLine fromStr) progress).items =
      progress.items ++ valueItems (lines.filterMap Line.content) := by
  induction lines generalizing progress with
  | nil => simp [valueItems]
  | cons line rest induction =>
      have first := takeLine_bytes (renders line List.mem_cons_self) progress
      rw [List.map_cons, List.foldl_cons,
        induction fun other member => renders other (List.mem_cons_of_mem _ member), first]
      cases content : line.content with
      | none => simp [content, valueItems]
      | some entry => simp [content, valueItems]

theorem finish_last (renders : ∀ entry ∈ last, Renders fromStr entry.1 entry.2)
    (progress : Progress ε) :
    finish fromStr ⟨contentBytes last, progress⟩ = progress.items ++ valueItems last.toList := by
  cases last with
  | none => simp [finish, contentBytes, valueItems]
  | some entry =>
      have rendered := renders entry rfl
      have shown : (Text.utf8 entry.1.toList).isEmpty = false := by
        simpa using Text.utf8_ne_nil rendered.shown
      simp [finish, contentBytes, shown, valueItems, parseLine, rendered.parses, rendered.tight,
        rendered.shown]

theorem fromByteStream_document {document : Document}
    (renders : ∀ entry ∈ document.entries, Renders fromStr entry.1 entry.2)
    {chunks : List (List UInt8)} (cutting : chunks.flatten = document.bytes) :
    fromByteStream fromStr (chunks.map .ok) = valueItems document.entries := by
  have renderedLines : ∀ line ∈ document.lines, ∀ entry ∈ line.content,
      Renders fromStr entry.1 entry.2 := by
    intro line member entry content
    apply renders
    exact List.mem_append_left _ (List.mem_filterMap.mpr ⟨line, member, content⟩)
  have renderedLast : ∀ entry ∈ document.last, Renders fromStr entry.1 entry.2 := by
    intro entry content
    apply renders
    exact List.mem_append_right _ (Option.mem_toList.mpr content)
  have rest : lineDecoder.drain (contentBytes document.last) =
      ⟨[], .ok (contentBytes document.last)⟩ := by
    apply Decoder.drain_of_more
    have absent : (10 : UInt8) ∉ contentBytes document.last :=
      Renders.not_mem_contentBytes renderedLast (by decide)
    show cutLine _ = _
    rw [cutLine, cut_eq_none_of_not_mem absent]
  have framed : ∀ line ∈ document.lines.map Line.bytes, ∀ rest,
      lineDecoder.decode (id line ++ rest) = .frame line rest := by
    intro bytes member rest
    obtain ⟨line, listed, rfl⟩ := List.mem_map.mp member
    exact cutLine_bytes (renderedLines line listed) rest
  have drained := Decoder.drain_flatten framed (contentBytes document.last)
  rw [List.map_id, rest] at drained
  rw [fromByteStream_eq, cutting, Document.bytes, drained]
  simp only [stateOf, Drained.after, List.append_nil, restOf]
  rw [finish_last renderedLast, foldl_takeLine_bytes renderedLines]
  simp [Document.entries, valueItems]

variable (fromStr) in
/-- The items depend on the bytes only, not on how they are cut; and values
rendered one a line are read back as exactly these values. -/
theorem fromByteStream_of_bytes :
    (∀ left right : List (List UInt8), left.flatten = right.flatten →
      fromByteStream fromStr (left.map .ok) = fromByteStream fromStr (right.map .ok)) ∧
    ∀ (document : Document) (chunks : List (List UInt8)),
      (∀ entry ∈ document.entries, Renders fromStr entry.1 entry.2) →
      chunks.flatten = document.bytes →
      fromByteStream fromStr (chunks.map .ok) =
        document.entries.map fun entry => .value entry.2 := by
  constructor
  · intro left right same
    rw [fromByteStream_eq, fromByteStream_eq, same]
  · intro document chunks renders cutting
    exact fromByteStream_document renders cutting

def wordFromStr (text : String) : Except String Value :=
  if text = "true" then .ok (.bool true)
  else if text = "null" then .ok .null
  else .error "expected value at line 1 column 1"

/-- Two values, an empty line between them and no terminator behind the second. -/
def wordDocument : Document :=
  ⟨[⟨some ("true", .bool true), .crlf⟩, ⟨none, .lf⟩], some ("null", .null)⟩

/-- The cut goes through the end of the first line. -/
theorem fromByteStream_of_bytes_words :
    fromByteStream wordFromStr
        ([wordDocument.bytes.take 5, wordDocument.bytes.drop 5].map .ok) =
      fromByteStream wordFromStr ([wordDocument.bytes].map .ok) ∧
    fromByteStream wordFromStr ([wordDocument.bytes].map .ok) =
      [.value (.bool true), .value .null] := by
  have whole : [wordDocument.bytes].flatten = wordDocument.bytes := by simp
  have cutting : [wordDocument.bytes.take 5, wordDocument.bytes.drop 5].flatten =
      [wordDocument.bytes].flatten := by simp
  have renders : ∀ entry ∈ wordDocument.entries, Renders wordFromStr entry.1 entry.2 := by
    intro entry member
    have listed : wordDocument.entries = [("true", .bool true), ("null", .null)] := rfl
    rw [listed] at member
    simp only [List.mem_cons, List.not_mem_nil, or_false] at member
    rcases member with rfl | rfl
    · exact ⟨rfl, Text.forall_of_all (by decide), by decide, by decide⟩
    · exact ⟨rfl, Text.forall_of_all (by decide), by decide, by decide⟩
  have both := fromByteStream_of_bytes wordFromStr
  exact ⟨both.1 _ _ cutting, both.2 wordDocument _ renders whole⟩

end NdjsonStream

end HarnessAgent
