import HarnessAgent.Foundation.Framing
import HarnessAgent.Foundation.Json
import HarnessAgent.Foundation.Utf8

/-! # Content-Length framing

The messages between the Copilot client and its subprocess: a header with the
length of the body in bytes, an empty line, and the body as JSON. The reader takes
frames off its buffer until it needs more, then reads the next chunk.
-/

namespace HarnessAgent

namespace Copilot

open Framing

structure SerdeBytes (ε : Type) where
  toVec : Value → Except ε (List UInt8)
  fromSlice : List UInt8 → Except ε Value

inductive HeaderFault (ε : Type)
  | notUtf8
  | noContentLength (header : List Char)
  | jsonParse (error : ε)
deriving DecidableEq

inductive CodecError (ε : Type)
  | badHeader (fault : HeaderFault ε)
  | frameTooLarge (length : Nat)
  | jsonEncode (error : ε)
deriving DecidableEq

def maxFrameSize : Nat := 64 * 1024 * 1024

def headerSeparator : List UInt8 := [13, 10, 13, 10]

def contentLengthName : List Char := "content-length:".toList

def lineContentLength (line : List Char) : Option Nat :=
  let line := Text.trim line
  if contentLengthName.isPrefixOf (Text.toAsciiLowercase line) then
    Text.parseUnsigned (Text.trim (line.drop contentLengthName.length))
  else none

variable {ε : Type}

def frameLength (header : List UInt8) : Except (CodecError ε) Nat :=
  match Text.fromUtf8 header with
  | none => .error (.badHeader .notUtf8)
  | some text =>
      match (Text.lines text).findSome? lineContentLength with
      | none => .error (.badHeader (.noContentLength text))
      | some length =>
          if length > maxFrameSize then .error (.frameTooLarge length) else .ok length

variable (serde : SerdeBytes ε)

def decode (source : List UInt8) : Decoded (CodecError ε) UInt8 Value :=
  match cut headerSeparator source with
  | none => .more
  | some (header, behind) =>
      match frameLength header with
      | .error error => .failed error
      | .ok length =>
          if source.length < header.length + headerSeparator.length + length then .more
          else
            match serde.fromSlice (behind.take length) with
            | .error error => .failed (.badHeader (.jsonParse error))
            | .ok value => .frame value (behind.drop length)

def headerText (length : Nat) : List Char :=
  "Content-Length: ".toList ++ Nat.toDigits 10 length

def frameHeader (length : Nat) : List UInt8 :=
  Text.utf8 (headerText length) ++ headerSeparator

def encode (item : Value) (destination : List UInt8) : Except (CodecError ε) (List UInt8) :=
  match serde.toVec item with
  | .error error => .error (.jsonEncode error)
  | .ok body => .ok (destination ++ frameHeader body.length ++ body)

def encodeAll (items : List Value) : Except (CodecError ε) (List UInt8) :=
  items.foldlM (fun destination item => encode serde item destination) []

/-! ## The decoder as a framing -/

variable {serde}

variable {source : List UInt8}

theorem decode_of_cut (found : cut headerSeparator source = some (header, behind)) :
    decode serde source =
      match frameLength header with
      | .error error => .failed error
      | .ok length =>
          if behind.length < length then .more
          else
            match serde.fromSlice (behind.take length) with
            | .error error => .failed (.badHeader (.jsonParse error))
            | .ok value => .frame value (behind.drop length) := by
  have size : source.length = header.length + headerSeparator.length + behind.length := by
    rw [append_of_cut found]
    simp only [List.length_append]
  simp only [decode, found]
  cases frameLength header with
  | error error => rfl
  | ok length =>
      simp only
      have same : source.length < header.length + headerSeparator.length + length ↔
          behind.length < length := by omega
      simp only [same]

theorem decode_of_cut_none (absent : cut headerSeparator source = none) :
    decode serde source = .more := by
  simp only [decode, absent]

/-- A decision needs the whole header and, unless the header is at fault, the whole
body. -/
theorem cut_of_decode (decided : decode serde source ≠ .more) :
    ∃ header behind, cut headerSeparator source = some (header, behind) ∧
      ∀ length, frameLength (ε := ε) header = .ok length → length ≤ behind.length := by
  cases found : cut headerSeparator source with
  | none => exact absurd (decode_of_cut_none found) decided
  | some sides =>
      refine ⟨sides.1, sides.2, rfl, ?_⟩
      intro length announced
      rw [decode_of_cut found, announced] at decided
      by_contra short
      exact decided (if_pos (by omega))

theorem decode_append (later : List UInt8) (decided : decode serde source ≠ .more) :
    decode serde (source ++ later) =
      match decode serde source with
      | .more => .more
      | .frame value rest => .frame value (rest ++ later)
      | .failed error => .failed error := by
  obtain ⟨header, behind, found, whole⟩ := cut_of_decode decided
  rw [decode_of_cut found, decode_of_cut (cut_append later found)]
  cases announced : frameLength (ε := ε) header with
  | error error => rfl
  | ok length =>
      have fits := whole length announced
      simp only [List.length_append]
      rw [if_neg (by omega), if_neg (by omega), List.take_append_of_le_length fits,
        List.drop_append_of_le_length fits]
      cases serde.fromSlice (behind.take length) <;> rfl

theorem length_of_decode (decoded : decode serde source = .frame value rest) :
    rest.length < source.length := by
  have decided : decode serde source ≠ .more := by
    rw [decoded]
    intro impossible
    cases impossible
  obtain ⟨header, behind, found, whole⟩ := cut_of_decode decided
  rw [decode_of_cut found] at decoded
  rw [append_of_cut found]
  cases announced : frameLength (ε := ε) header with
  | error error => simp [announced] at decoded
  | ok length =>
      have fits := whole length announced
      simp only [announced] at decoded
      rw [if_neg (by omega)] at decoded
      cases parsed : serde.fromSlice (behind.take length) with
      | error error => simp [parsed] at decoded
      | ok parsedValue =>
          simp only [parsed, Decoded.frame.injEq] at decoded
          rw [← decoded.2]
          simp only [List.length_append, List.length_drop, headerSeparator, List.length_cons]
          omega

variable (serde) in
def contentLengthCodec : Decoder (CodecError ε) UInt8 Value where
  decode := decode serde
  shrinks := length_of_decode
  frame_append := by
    intro source value rest later decoded
    rw [decode_append later (by simp [decoded]), decoded]
  failed_append := by
    intro source error later decoded
    rw [decode_append later (by simp [decoded]), decoded]

/-! ## Encoded messages -/

theorem headerText_ne_nil (length : Nat) : headerText length ≠ [] :=
  List.append_ne_nil_of_right_ne_nil _ Nat.toDigits_ne_nil

theorem lineContentLength_headerText (fits : length < 2 ^ 64) :
    lineContentLength (headerText length) = some length := by
  have first : (headerText length).head? = some 'C' := rfl
  have last : (headerText length).getLast? = (Nat.toDigits 10 length).getLast? :=
    List.getLast?_append_of_ne_nil _ Nat.toDigits_ne_nil
  have whole : Text.trim (headerText length) = headerText length := by
    apply Text.trim_eq_self_of_ends
    · rw [first]
      simp [Text.isWhitespace]
    · rw [last]
      intro character ends
      exact Text.isWhitespace_of_mem_toDigits (List.mem_of_mem_getLast? ends)
  have named : contentLengthName.isPrefixOf (Text.toAsciiLowercase (headerText length)) = true :=
    rfl
  have value : (headerText length).drop contentLengthName.length =
      [' '] ++ Nat.toDigits 10 length := rfl
  have blank : Text.Blank [' '] := by simp [Text.Blank, Text.isWhitespace]
  simp only [lineContentLength, whole]
  rw [if_pos named, value, Text.trim_of_blank_append blank, Text.trim_toDigits,
    Text.parseUnsigned_toDigits fits]

theorem not_mem_headerText (length : Nat) (control : character.toNat < 0x20) :
    character ∉ headerText length := by
  intro member
  rcases List.mem_append.mp member with fixed | digit
  · have visible : ∀ character ∈ "Content-Length: ".toList, 0x20 ≤ character.toNat :=
      Text.forall_of_all (by decide)
    have code := visible character fixed
    omega
  · have shown := Text.isAsciiDigit_of_mem_toDigits digit
    simp only [Text.isAsciiDigit, Bool.and_eq_true, decide_eq_true_eq] at shown
    omega

theorem frameLength_headerText (fits : length ≤ maxFrameSize) :
    frameLength (ε := ε) (Text.utf8 (headerText length)) = .ok length := by
  have single : Text.lines (headerText length) = [headerText length] :=
    Text.lines_of_not_mem (not_mem_headerText length (by decide)) (headerText_ne_nil length)
  have small : length < 2 ^ 64 := lt_of_le_of_lt fits (by decide)
  have bounded : ¬ length > maxFrameSize := by omega
  simp [frameLength, single, lineContentLength_headerText small, bounded]

/-- The decoder takes a message off whatever follows it. The header holds no
carriage return, so the first separator is the one behind the header, whatever the
body contains. -/
theorem decode_frame (fits : body.length ≤ maxFrameSize) (parsed : serde.fromSlice body = .ok value)
    (rest : List UInt8) :
    decode serde (frameHeader body.length ++ body ++ rest) = .frame value rest := by
  have absent : (13 : UInt8) ∉ Text.utf8 (headerText body.length) := by
    intro member
    obtain ⟨character, listed, code⟩ := Text.mem_of_mem_utf8 member (by decide)
    exact not_mem_headerText body.length (by rw [code]; decide) listed
  have found : cut headerSeparator (frameHeader body.length ++ body ++ rest) =
      some (Text.utf8 (headerText body.length), body ++ rest) := by
    rw [frameHeader, List.append_assoc]
    exact cut_of_not_mem absent (body ++ rest)
  rw [decode_of_cut found, frameLength_headerText fits]
  simp [parsed]

/-! ## The reader -/

inductive ReadOutcome
  | bytes (chunk : List UInt8)
  | endOfFile
  | failed (message : String)

inductive ReaderEnd (ε : Type)
  | waiting (buffer : List UInt8)
  | endOfFile
  | readError (message : String)
  | codecError (error : CodecError ε)
deriving DecidableEq

variable (serde) in
/-- The loop of the reader, from what it has decoded so far: the messages it
dispatches, in order, and where it stands after the reads. -/
def readerLoop (drained : Drained (CodecError ε) UInt8 Value) :
    List ReadOutcome → List Value × ReaderEnd ε
  | [] =>
      match drained.ending with
      | .error error => (drained.items, .codecError error)
      | .ok buffer => (drained.items, .waiting buffer)
  | read :: rest =>
      match drained.ending with
      | .error error => (drained.items, .codecError error)
      | .ok _ =>
          match read with
          | .bytes chunk => readerLoop ((contentLengthCodec serde).feed drained chunk) rest
          | .endOfFile => (drained.items, .endOfFile)
          | .failed message => (drained.items, .readError message)

variable (serde) in
def readerTask (reads : List ReadOutcome) : List Value × ReaderEnd ε :=
  readerLoop serde ((contentLengthCodec serde).drain []) reads

theorem readerLoop_bytes {chunks : List (List UInt8)} {values : List Value}
    {buffer : List UInt8} {drained : Drained (CodecError ε) UInt8 Value}
    (fed : chunks.foldl (contentLengthCodec serde).feed drained = ⟨values, .ok buffer⟩) :
    readerLoop serde drained (chunks.map .bytes) = (values, .waiting buffer) := by
  induction chunks generalizing drained with
  | nil =>
      rw [List.foldl_nil] at fed
      rw [fed]
      rfl
  | cons chunk rest induction =>
      rw [List.map_cons, readerLoop]
      cases ending : drained.ending with
      | ok held =>
          rw [List.foldl_cons] at fed
          exact induction fed
      | error error =>
          rw [Decoder.foldl_feed_of_error ending] at fed
          rw [fed] at ending
          cases ending

structure Sendable (serde : SerdeBytes ε) (values : List Value) : Prop where
  roundTrip : ∀ value ∈ values, ∀ body, serde.toVec value = .ok body →
    serde.fromSlice body = .ok value
  fits : ∀ value ∈ values, ∀ body, serde.toVec value = .ok body → body.length ≤ maxFrameSize

variable (serde) in
def frameOf (value : Value) : List UInt8 :=
  match serde.toVec value with
  | .error _ => []
  | .ok body => frameHeader body.length ++ body

theorem encodeAll_frames (encoded : encodeAll serde values = .ok bytes) :
    bytes = (values.map (frameOf serde)).flatten ∧
      ∀ value ∈ values, ∃ body, serde.toVec value = .ok body := by
  have encodedFrom : ∀ (values : List Value) (start : List UInt8),
      values.foldlM (fun destination item => encode serde item destination) start = .ok bytes →
      bytes = start ++ (values.map (frameOf serde)).flatten ∧
        ∀ value ∈ values, ∃ body, serde.toVec value = .ok body := by
    intro values
    induction values with
    | nil =>
        intro start done
        cases done
        simp
    | cons value rest induction =>
        intro start done
        rw [List.foldlM_cons] at done
        cases rendered : serde.toVec value with
        | error error =>
            simp only [encode, rendered] at done
            cases done
        | ok body =>
            simp only [encode, rendered] at done
            have later := induction _ done
            constructor
            · rw [later.1]
              simp [frameOf, rendered]
            · intro other member
              rcases List.mem_cons.mp member with rfl | listed
              · exact ⟨body, rendered⟩
              · exact later.2 other listed
  have whole := encodedFrom values [] encoded
  rwa [List.nil_append] at whole

/-- However the bytes of the messages are cut, the reader dispatches exactly the
messages, in order, and waits with an empty buffer. -/
theorem readerTask_encodeAll (serde : SerdeBytes ε) {values : List Value}
    (sendable : Sendable serde values) {bytes : List UInt8}
    (encoded : encodeAll serde values = .ok bytes) {chunks : List (List UInt8)}
    (cutting : chunks.flatten = bytes) :
    readerTask serde (chunks.map .bytes) = (values, .waiting []) := by
  obtain ⟨whole, rendered⟩ := encodeAll_frames encoded
  have framed : ∀ value ∈ values, ∀ rest,
      (contentLengthCodec serde).decode (frameOf serde value ++ rest) = .frame value rest := by
    intro value member rest
    obtain ⟨body, rendering⟩ := rendered value member
    have frame : frameOf serde value = frameHeader body.length ++ body := by
      simp only [frameOf, rendering]
    rw [frame]
    exact decode_frame (sendable.fits value member body rendering)
      (sendable.roundTrip value member body rendering) rest
  apply readerLoop_bytes
  calc (contentLengthCodec serde).feedAll chunks
      = (contentLengthCodec serde).drain ((values.map (frameOf serde)).flatten ++ []) := by
        rw [Decoder.feedAll_eq_drain, cutting, whole, List.append_nil]
    _ = ((contentLengthCodec serde).drain []).after values := Decoder.drain_flatten framed []
    _ = ⟨values, .ok []⟩ := by
        have waits : (contentLengthCodec serde).decode [] = .more := rfl
        rw [Decoder.drain_of_more waits]
        simp [Drained.after]

def wordSerde : SerdeBytes String where
  toVec
    | .bool true => .ok (Text.utf8 "true".toList)
    | .null => .ok (Text.utf8 "null".toList)
    | _ => .error "not a word"
  fromSlice bytes :=
    if bytes = Text.utf8 "true".toList then .ok (.bool true)
    else if bytes = Text.utf8 "null".toList then .ok .null
    else .error "expected value at line 1 column 1"

/-- Two messages, cut inside the first header and inside the second body. -/
theorem readerTask_encodeAll_words :
    Sendable wordSerde [.bool true, .null] ∧
      readerTask wordSerde
        ([(frameOf wordSerde (.bool true)).take 3,
          (frameOf wordSerde (.bool true)).drop 3 ++ (frameOf wordSerde .null).take 21,
          (frameOf wordSerde .null).drop 21].map .bytes) =
        ([.bool true, .null], .waiting []) := by
  have sendable : Sendable wordSerde [.bool true, .null] := by
    constructor
    all_goals
      intro value member body rendered
      simp only [List.mem_cons, List.not_mem_nil, or_false] at member
      rcases member with rfl | rfl
      all_goals
        cases rendered
        decide
  refine ⟨sendable, ?_⟩
  apply readerTask_encodeAll wordSerde sendable rfl
  rfl

end Copilot

end HarnessAgent
