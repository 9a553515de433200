import HarnessAgent.Foundation.GrowingTexts
import HarnessAgent.Provider.OpenCodeSession

/-! # The texts of an OpenCode session

The parts of a session's messages grow update by update. The session passes on what an
update says was added, or else the whole text, whoever the message is from.
-/

namespace HarnessAgent

namespace OpenCode

open Provider EventRun GrowingTexts

def assistantContent : MessageChunk → List Char
  | .assistant content _ => content.toList
  | _ => []

abbrev PartKey := String × String

def IsTextPart (sessionId : String) (part : Members) : Prop :=
  (part.getStr "sessionID").getD "" = sessionId ∧ part.getStr "type" = some "text"

instance (sessionId : String) (part : Members) : Decidable (IsTextPart sessionId part) := by
  unfold IsTextPart
  infer_instance

def partUpdate (part : Members) (delta : Option String) : Option (Update PartKey Char) := do
  let messageId ← part.getStr "messageID"
  let partId ← part.getStr "id"
  let text ← part.getStr "text"
  pure { label := (messageId, partId), text := text.toList, delta := delta.map String.toList }

def textUpdate (sessionId : String) (event : SseEvent) : Option (Update PartKey Char) :=
  if event.eventType = "message.part.updated" then
    (event.properties.getObject "part").bind fun part =>
      if IsTextPart sessionId part then partUpdate part (event.properties.getStr "delta") else none
  else none

def textUpdates (sessionId : String) (events : List SseEvent) : List (Update PartKey Char) :=
  events.filterMap (textUpdate sessionId)

def fromAssistant (sessionId messageId : String) (event : SseEvent) : Bool :=
  event.eventType = "message.updated" &&
    (event.properties.getObject "info").any fun info =>
      info.getStr "role" = some "assistant" && info.getStr "sessionID" = some sessionId &&
        info.getStr "id" = some messageId

def assistantPart (sessionId : String) (events : List SseEvent) (part : PartKey) : Bool :=
  events.any (fromAssistant sessionId part.1)

structure SpellsParts (sessionId : String) (events : List SseEvent) : Prop where
  named : ∀ event ∈ events, event.eventType = "message.part.updated" →
    ∀ part, event.properties.getObject "part" = some part → IsTextPart sessionId part →
      (partUpdate part (event.properties.getStr "delta")).isSome = true
  grows : Grows (textUpdates sessionId events)

theorem assistantContent_processToolPart (part : Members) (state : SessionState) :
    (processToolPart part state).1.flatMap assistantContent = [] := by
  cases called : part.getStr "callID" with
  | none =>
      rw [processToolPart, called]
      rfl
  | some callId =>
      rcases processToolPart_called called state with ⟨toolName, toolInput, output, same⟩
      rw [same, List.flatMap_append]
      split <;> split <;> rfl

theorem partUpdate_said (read : partUpdate part delta = some update) :
    update.said = ((delta.or (part.getStr "text")).getD "").toList := by
  rw [partUpdate] at read
  rcases Option.bind_eq_some_iff.mp read with ⟨messageId, -, read⟩
  rcases Option.bind_eq_some_iff.mp read with ⟨partId, -, read⟩
  rcases Option.bind_eq_some_iff.mp read with ⟨text, found, read⟩
  cases read
  rw [found]
  cases delta with
  | none => rfl
  | some delta => rfl

theorem assistantContent_hear (named : event.eventType = "message.part.updated" →
      ∀ part, event.properties.getObject "part" = some part → IsTextPart sessionId part →
        (partUpdate part (event.properties.getStr "delta")).isSome = true) (heard : Heard) :
    (hear sessionId heard event).chunks.flatMap assistantContent =
      heard.chunks.flatMap assistantContent ++
        (textUpdate sessionId event).toList.flatMap Update.said := by
  by_cases typed : event.eventType = "message.part.updated"
  · have same : hear sessionId heard event =
        { state := (processMessagePartUpdated event.properties sessionId heard.state).2
          chunks := heard.chunks ++
            (processMessagePartUpdated event.properties sessionId heard.state).1 } := by
      rw [hear, if_neg (by simp [typed]), if_pos typed]
    rw [same, List.flatMap_append, List.append_cancel_left_eq, textUpdate, if_pos typed,
      processMessagePartUpdated]
    cases found : event.properties.getObject "part" with
    | none => rfl
    | some part =>
        have named := named typed part found
        dsimp only [Option.bind_some]
        split
        next other =>
          rw [if_neg (fun text => other text.1)]
          rfl
        next ours =>
          split
          next text =>
            have isText : IsTextPart sessionId part := ⟨not_not.mp ours, text⟩
            rcases Option.isSome_iff_exists.mp (named isText) with ⟨update, read⟩
            rw [if_pos isText, read, Option.toList_some, List.flatMap_singleton,
              partUpdate_said read]
            change (if partText event.properties part = "" then [] else
              [MessageChunk.assistant (partText event.properties part) none]).flatMap
                assistantContent = (partText event.properties part).toList
            split
            · next empty =>
                rw [empty]
                rfl
            · rw [List.flatMap_singleton]
              rfl
          next reasoning =>
            have noText : ¬IsTextPart sessionId part := fun text =>
              absurd (text.2.symm.trans reasoning) (by decide)
            rw [if_neg noText]
            split <;> rfl
          next tool =>
            have noText : ¬IsTextPart sessionId part := fun text =>
              absurd (text.2.symm.trans tool) (by decide)
            rw [if_neg noText]
            exact assistantContent_processToolPart part heard.state
          next notText _ _ =>
            have noText : ¬part.getStr "type" = some "text" := notText
            rw [if_neg (fun text => noText text.2)]
            rfl
  · rw [textUpdate, if_neg typed, hear]
    split
    · exact (List.append_nil _).symm
    · exact (List.append_nil _).symm

theorem assistantContent_run (named : ∀ event ∈ events, event.eventType = "message.part.updated" →
      ∀ part, event.properties.getObject "part" = some part → IsTextPart sessionId part →
        (partUpdate part (event.properties.getStr "delta")).isSome = true) :
    (run (hear sessionId) {} events).chunks.flatMap assistantContent =
      (textUpdates sessionId events).flatMap Update.said := by
  induction events using List.reverseRecOn with
  | nil => rfl
  | append_singleton events event induction =>
      rw [run, List.foldl_append]
      change (hear sessionId (run (hear sessionId) {} events) event).chunks.flatMap _ = _
      rw [assistantContent_hear (named event (List.mem_append_right _ (List.mem_singleton_self _))),
        induction (fun other member => named other (List.mem_append_left _ member)), textUpdates,
        textUpdates, List.filterMap_append, List.flatMap_append]
      cases read : textUpdate sessionId event with
      | none => simp [read]
      | some update => simp [read]

/-- The assistant's chunks are the final texts of its parts exactly if other parts say
nothing, a text is given as a whole only at its start, and what is added comes in the order
of the parts. -/
theorem streamOpencodeSession_texts_iff {render : Value → String} {attempt : Attempt}
    {sessionId : String} {chunks : List MessageChunk}
    (ended : streamOpencodeSession render attempt sessionId = .ok chunks)
    (spells : SpellsParts sessionId (heardEvents sessionId attempt.events)) :
    chunks.flatMap assistantContent =
        finals (assistantPart sessionId (heardEvents sessionId attempt.events))
          (textUpdates sessionId (heardEvents sessionId attempt.events)) ↔
      Faithful (assistantPart sessionId (heardEvents sessionId attempt.events))
        (textUpdates sessionId (heardEvents sessionId attempt.events)) := by
  rcases streamOpencodeSession_ok ended with ⟨fields, rfl⟩
  have result : [MessageChunk.result fields].flatMap assistantContent = [] := rfl
  rw [List.flatMap_append, result, List.append_nil, assistantContent_run spells.named]
  exact flatMap_said_eq_finals_iff spells.grows

def messageEvent (messageId role : String) : SseEvent where
  eventType := "message.updated"
  properties := [("info", .object [("id", .string messageId), ("sessionID", .string "s1"),
    ("role", .string role)])]

def textEvent (messageId partId text : String) (delta : Option String) : SseEvent where
  eventType := "message.part.updated"
  properties := ("part", .object [("sessionID", .string "s1"), ("type", .string "text"),
    ("messageID", .string messageId), ("id", .string partId), ("text", .string text)]) ::
      delta.toList.map fun delta => ("delta", .string delta)

def greetingEvents : List SseEvent :=
  [messageEvent "m1" "assistant", textEvent "m1" "p1" "Hel" (some "Hel"),
    textEvent "m1" "p1" "Hello" (some "lo")]

/-- A question, and an answer that arrives as a whole each time. -/
def echoEvents : List SseEvent :=
  [messageEvent "m1" "user", textEvent "m1" "p1" "Hi" none, messageEvent "m2" "assistant",
    textEvent "m2" "p2" "Hel" none, textEvent "m2" "p2" "Hello" none]

def spokenAttempt (events : List SseEvent) : Attempt where
  createSession := .ok createdSession
  events := events.map .ok ++ [.ok (endEvent "session.idle" "s1")]

theorem spellsParts_greeting : SpellsParts "s1" greetingEvents where
  named := by
    intro event member typed part found text
    simp only [greetingEvents, List.mem_cons, List.not_mem_nil, or_false] at member
    rcases member with rfl | rfl | rfl
    · exact absurd typed (by decide)
    · cases found
      rfl
    · cases found
      rfl
  grows := by
    refine ⟨⟨by decide +kernel, ?_⟩, ⟨by decide +kernel, ?_⟩, trivial⟩
    · rintro delta given
      cases given
      rfl
    · rintro delta given
      cases given
      rfl

theorem spellsParts_echo : SpellsParts "s1" echoEvents where
  named := by
    intro event member typed part found text
    simp only [echoEvents, List.mem_cons, List.not_mem_nil, or_false] at member
    rcases member with rfl | rfl | rfl | rfl | rfl
    · exact absurd typed (by decide)
    · cases found
      rfl
    · exact absurd typed (by decide)
    · cases found
      rfl
    · cases found
      rfl
  grows := by
    refine ⟨⟨by decide +kernel, ?_⟩, ⟨by decide +kernel, ?_⟩, ⟨by decide +kernel, ?_⟩, trivial⟩
    · rintro delta given
      cases given
    · rintro delta given
      cases given
    · rintro delta given
      cases given

theorem streamOpencodeSession_greeting :
    ∃ chunks, streamOpencodeSession (fun _ => "") (spokenAttempt greetingEvents) "s1" = .ok chunks ∧
      (chunks.flatMap assistantContent =
          finals (assistantPart "s1" (heardEvents "s1" (spokenAttempt greetingEvents).events))
            (textUpdates "s1" (heardEvents "s1" (spokenAttempt greetingEvents).events)) ↔
        Faithful (assistantPart "s1" (heardEvents "s1" (spokenAttempt greetingEvents).events))
          (textUpdates "s1" (heardEvents "s1" (spokenAttempt greetingEvents).events))) := by
  have ends : ∃ chunks,
      streamOpencodeSession (fun _ => "") (spokenAttempt greetingEvents) "s1" = .ok chunks :=
    ⟨_, rfl⟩
  rcases ends with ⟨chunks, ended⟩
  exact ⟨chunks, ended, streamOpencodeSession_texts_iff ended spellsParts_greeting⟩

/-- The question is echoed, and the start of the answer is said twice. -/
theorem streamOpencodeSession_echo :
    ∃ chunks, streamOpencodeSession (fun _ => "") (spokenAttempt echoEvents) "s1" = .ok chunks ∧
      SpellsParts "s1" (heardEvents "s1" (spokenAttempt echoEvents).events) ∧
      chunks.flatMap assistantContent = "HiHelHello".toList ∧
      finals (assistantPart "s1" (heardEvents "s1" (spokenAttempt echoEvents).events))
        (textUpdates "s1" (heardEvents "s1" (spokenAttempt echoEvents).events)) =
          "Hello".toList := by
  refine ⟨_, rfl, spellsParts_echo, ?_, ?_⟩
  · decide +kernel
  · decide +kernel

end OpenCode

end HarnessAgent
