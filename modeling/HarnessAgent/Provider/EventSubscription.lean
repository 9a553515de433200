import HarnessAgent.Foundation.EventStream
import HarnessAgent.Provider.OpenCodeProvider

/-! # The event subscription

The OpenCode client reads the server's event stream from the chunks of a response:
every chunk is decoded by itself, frames are cut off at two line feeds, and each data
line of a frame is parsed as one JSON value.
-/

namespace HarnessAgent

namespace OpenCode

open Framing EventStream

inductive HttpClientError
  | reqwest (message : String)
  | sseParse (message : String)

def SseEvent.ofObject (object : Members) : SseEvent where
  eventType := (object.getStr "type").getD "unknown"
  properties := (object.getObject "properties").getD (object.remove "type")

def dataText (line : List Char) : Option (List Char) :=
  match Text.afterLiteral "data: ".toList line with
  | none => none
  | some data => if data = [] ∨ data = "[DONE]".toList then none else some data

def frameTexts (frame : List Char) : List (List Char) :=
  (Text.lines frame).filterMap dataText

structure Reading where
  events : List SseEvent
  failure : Option HttpClientError

def Reading.items (reading : Reading) : List (Except HttpClientError SseEvent) :=
  reading.events.map .ok ++ (reading.failure.map .error).toList

section Parser

variable (fromStr : String → Except String Value)

def readTexts : List (List Char) → Reading
  | [] => ⟨[], none⟩
  | data :: rest =>
      match fromStr (String.ofList data) with
      | .error message => ⟨[], some (.sseParse (message ++ ": " ++ String.ofList data))⟩
      | .ok (.object object) =>
          let reading := readTexts rest
          { reading with events := SseEvent.ofObject object :: reading.events }
      | .ok _ => readTexts rest

def cutFrame (buffer : List Char) : Decoded Empty Char (List Char) :=
  match cut ['\n', '\n'] buffer with
  | none => .more
  | some (frame, rest) => .frame frame rest

def frameDecoder : Decoder Empty Char (List Char) where
  decode := cutFrame
  shrinks := by
    intro buffer frame rest decoded
    simp only [cutFrame] at decoded
    split at decoded
    · cases decoded
    · next found =>
        cases decoded
        rw [append_of_cut found]
        simp only [List.length_append, List.length_cons]
        omega
  frame_append := by
    intro buffer frame rest later decoded
    simp only [cutFrame] at decoded ⊢
    split at decoded
    · cases decoded
    · next found =>
        cases decoded
        rw [cut_append later found]
  failed_append := by
    intro buffer error
    exact error.elim

def unread (drained : Drained Empty Char (List Char)) : List Char :=
  match drained.ending with
  | .ok rest => rest
  | .error impossible => nomatch impossible

/-- The loop over the chunks of the response, with the buffer between them. -/
def readChunks (buffer : List Char) :
    List (Except String (List UInt8)) → List (Except HttpClientError SseEvent)
  | [] => []
  | .error message :: _ => [.error (.reqwest message)]
  | .ok chunk :: rest =>
      let drained := frameDecoder.drain (buffer ++ Text.fromUtf8Lossy chunk)
      let reading := readTexts fromStr (drained.items.flatMap frameTexts)
      match reading.failure with
      | some _ => reading.items
      | none => reading.items ++ readChunks (unread drained) rest

def subscribeEvents (chunks : List (Except String (List UInt8))) :
    List (Except HttpClientError SseEvent) :=
  readChunks fromStr [] chunks

end Parser

/-- The texts that reach the JSON parser as long as it accepts them. -/
def dataTexts (chunks : List (List UInt8)) : List (List Char) :=
  (frameDecoder.feedAll (chunks.map Text.fromUtf8Lossy)).items.flatMap frameTexts

theorem readTexts_append (fromStr : String → Except String Value) (left right : List (List Char)) :
    (readTexts fromStr (left ++ right)).items =
      match (readTexts fromStr left).failure with
      | some _ => (readTexts fromStr left).items
      | none => (readTexts fromStr left).items ++ (readTexts fromStr right).items := by
  induction left with
  | nil => rfl
  | cons data left induction =>
      rw [List.cons_append, readTexts, readTexts]
      split
      · rfl
      · next object _ =>
          simp only [Reading.items] at induction ⊢
          split at induction
          · next failed =>
              simp only [failed] at induction ⊢
              simpa using induction
          · next whole =>
              simp only [whole] at induction ⊢
              simpa using induction
      · exact induction

theorem ending_unread (drained : Drained Empty Char (List Char)) :
    drained.ending = .ok (unread drained) := by
  unfold unread
  split
  · assumption
  · next impossible _ => exact impossible.elim

theorem drain_append (buffer later : List Char) :
    frameDecoder.drain (buffer ++ later) =
      (frameDecoder.drain (unread (frameDecoder.drain buffer) ++ later)).after
        (frameDecoder.drain buffer).items := by
  rw [← Decoder.feed_drain, Decoder.feed, ending_unread]

theorem items_drain_unread (buffer : List Char) :
    (frameDecoder.drain (unread (frameDecoder.drain buffer))).items = [] := by
  have again := congrArg Drained.items (drain_append buffer [])
  rw [List.append_nil, List.append_nil, Drained.after] at again
  exact List.self_eq_append_right.mp again

theorem readChunks_ok (fromStr : String → Except String Value) (chunks : List (List UInt8))
    (buffer : List Char) (waiting : (frameDecoder.drain buffer).items = []) :
    readChunks fromStr buffer (chunks.map .ok) =
      (readTexts fromStr ((frameDecoder.drain
        (buffer ++ chunks.flatMap Text.fromUtf8Lossy)).items.flatMap frameTexts)).items := by
  induction chunks generalizing buffer with
  | nil =>
      rw [List.flatMap_nil, List.append_nil, waiting]
      rfl
  | cons chunk chunks induction =>
      have later := induction (unread (frameDecoder.drain (buffer ++ Text.fromUtf8Lossy chunk)))
        (items_drain_unread _)
      rw [List.map_cons, readChunks, List.flatMap_cons, ← List.append_assoc,
        drain_append (buffer ++ Text.fromUtf8Lossy chunk), Drained.after, List.flatMap_append,
        readTexts_append, later]

theorem dataTexts_eq (chunks : List (List UInt8)) :
    dataTexts chunks =
      (frameDecoder.drain (chunks.flatMap Text.fromUtf8Lossy)).items.flatMap frameTexts := by
  rw [dataTexts, Decoder.feedAll_eq_drain, ← List.flatMap_def]

theorem drain_nil : frameDecoder.drain [] = ⟨[], .ok []⟩ :=
  Decoder.drain_of_more rfl

theorem subscribeEvents_ok (fromStr : String → Except String Value)
    (chunks : List (List UInt8)) :
    subscribeEvents fromStr (chunks.map .ok) = (readTexts fromStr (dataTexts chunks)).items := by
  rw [subscribeEvents, readChunks_ok fromStr chunks [] (by rw [drain_nil]), List.nil_append,
    dataTexts_eq]

theorem drain_of_cut (found : cut ['\n', '\n'] buffer = some (frame, rest)) :
    frameDecoder.drain buffer = (frameDecoder.drain rest).after [frame] := by
  apply Decoder.drain_of_frame
  show cutFrame buffer = .frame frame rest
  rw [cutFrame, found]

theorem drain_of_no_cut (absent : cut ['\n', '\n'] buffer = none) :
    frameDecoder.drain buffer = ⟨[], .ok buffer⟩ := by
  apply Decoder.drain_of_more
  show cutFrame buffer = .more
  rw [cutFrame, absent]

/-- The frames up to the last one whose blank line is a single line feed. -/
def delivered (frames : List Frame) : List Frame :=
  frames.rdropWhile fun frame => decide (frame.ending = .crlf)

theorem delivered_append_cons (front back : List Frame) (ends : frame.ending = .lf) :
    delivered (front ++ frame :: back) = front ++ frame :: delivered back := by
  have kept : ¬ decide (frame.ending = .crlf) = true := by
    rw [ends]
    decide
  rw [delivered, delivered]
  induction back using List.reverseRecOn with
  | nil => exact List.rdropWhile_concat_neg _ _ _ kept
  | append_singleton back last induction =>
      rw [← List.cons_append, ← List.append_assoc, List.rdropWhile_concat, induction,
        List.rdropWhile_concat]
      split <;> simp

def handed (frame : Frame) : List (List Char) :=
  frame.read.filterMap dataText

theorem frameTexts_drain (frames : List Frame) (plain : ∀ frame ∈ frames, frame.Plain) :
    ∀ (late : List Frame), (∀ frame ∈ late, frame.Plain) →
      (∀ frame ∈ late, frame.ending = .crlf) →
      (frameDecoder.drain (text late ++ text frames)).items.flatMap frameTexts =
        (delivered (late ++ frames)).flatMap handed := by
  induction frames with
  | nil =>
      intro late lateTexts ending
      have lacking : delivered (late ++ []) = [] := by
        rw [List.append_nil]
        apply List.rdropWhile_eq_nil_iff.mpr
        intro frame member
        rw [ending frame member]
        rfl
      rw [lacking, show text [] = [] from rfl, List.append_nil,
        drain_of_no_cut (cut_late lateTexts ending)]
      rfl
  | cons frame frames induction =>
      intro late lateTexts ending
      have own := plain frame List.mem_cons_self
      have others := induction fun other member => plain other (List.mem_cons_of_mem _ member)
      cases ends : frame.ending with
      | crlf =>
          have later := others (late ++ [frame])
            (by
              intro other member
              rcases List.mem_append.mp member with member | member
              · exact lateTexts other member
              · rcases List.mem_singleton.mp member with rfl
                exact own)
            (by
              intro other member
              rcases List.mem_append.mp member with member | member
              · exact ending other member
              · rcases List.mem_singleton.mp member with rfl
                exact ends)
          rw [List.append_assoc, List.singleton_append] at later
          rw [← later]
          simp [text]
      | lf =>
          obtain ⟨before, found, lines⟩ := cut_text lateTexts ending own ends (text frames)
          have later := others [] (by simp) (by simp)
          have parts : delivered (late ++ frame :: frames) =
              late ++ frame :: delivered frames := delivered_append_cons late frames ends
          have read : frameTexts before = (late ++ [frame]).flatMap handed := by
            rw [frameTexts, lines, List.filterMap_append, List.filterMap_flatMap,
              List.flatMap_append, List.flatMap_singleton]
            rfl
          have whole : text late ++ text (frame :: frames) =
              text late ++ frame.text ++ text frames := by
            simp [text]
          rw [whole, drain_of_cut found, Drained.after, List.flatMap_append,
            List.flatMap_singleton, read, parts]
          rw [List.nil_append] at later
          rw [show text [] ++ text frames = text frames from rfl] at later
          rw [later]
          simp

end OpenCode

end HarnessAgent
