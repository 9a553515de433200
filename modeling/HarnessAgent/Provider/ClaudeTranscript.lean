import HarnessAgent.Foundation.Lists
import HarnessAgent.Provider.ClaudeProvider

/-! # Claude transcripts

A transcript of the CLI has messages of the assistant and of the user, each with blocks
of several types. What the chunks say of the blocks is compared with the blocks.
-/

namespace HarnessAgent

namespace Claude

open Provider

inductive Mark
  | text (content : String)
  | tool (name callId : Option String)
  | result (callId : Option String)
  deriving DecidableEq

def assistantMark (block : Value) : Option Mark :=
  if block.getStr "type" = some "text" then
    ((block.getStr "text").filter fun text => text ≠ "").map .text
  else if block.getStr "type" = some "tool_use" then
    some (.tool (block.getStr "name") (block.getStr "id"))
  else none

def userMark (block : Value) : Option Mark :=
  if block.getStr "type" = some "tool_result" then some (.result (block.getStr "tool_use_id"))
  else none

def messageBlocks (event : Value) : List Value :=
  ((event.get "message").bind fun message => message.getArray "content").getD []

def eventMarks (event : Value) : List Mark :=
  if event.getStr "type" = some "assistant" then (messageBlocks event).filterMap assistantMark
  else if event.getStr "type" = some "user" then (messageBlocks event).filterMap userMark
  else []

def chunkMark : MessageChunk → Option Mark
  | .assistant content _ => some (.text content)
  | .tool toolName _ toolCallId => some (.tool (some toolName) toolCallId)
  | .toolResult _ _ toolCallId => some (.result toolCallId)
  | _ => none

structure Shows (events : List Value) (chunks : List MessageChunk) : Prop where
  inOrder : chunks.filterMap chunkMark = events.flatMap eventMarks
  matched : ∀ toolName toolInput callId, .tool toolName toolInput (some callId) ∈ chunks →
    .result (some callId) ∈ events.flatMap eventMarks →
      ∃ resultName toolOutput, .toolResult resultName toolOutput (some callId) ∈ chunks

structure OneResultFirst (event : Value) : Prop where
  named : event.getStr "type" = some "assistant" → ∀ block ∈ messageBlocks event,
    block.getStr "type" = some "tool_use" → (block.getStr "name").isSome = true
  first : event.getStr "type" = some "user" → ∀ block ∈ (messageBlocks event).tail,
    block.getStr "type" ≠ some "tool_result"

def CutsCleanly (render : Value → String) (event : Value) : Prop :=
  event.getStr "type" = some "user" → ∀ block ∈ (messageBlocks event).head?,
    block.getStr "type" = some "tool_result" →
      ¬Text.Straddles maxToolOutputLen (rawToolOutput render (block.get "content")).toList

/-! ## Blocks -/

theorem assistantBlock_marks (block : Value) :
    ((assistantBlock block).filterMap chunkMark).Sublist (assistantMark block).toList ∧
      ((assistantBlock block).filterMap chunkMark = (assistantMark block).toList ↔
        (block.getStr "type" = some "tool_use" → (block.getStr "name").isSome = true)) := by
  rw [assistantBlock, assistantMark]
  cases typed : block.getStr "type" with
  | none => simp
  | some type =>
      rw [Option.getD_some]
      split
      · cases block.getStr "text" with
        | none => simp
        | some text =>
            by_cases empty : text = ""
            · simp [empty]
            · simp [empty, chunkMark, Option.filter]
      · cases block.getStr "name" with
        | none => simp
        | some name => simp [chunkMark]
      · next notText notTool =>
          have text : type ≠ "text" := notText
          have tool : type ≠ "tool_use" := notTool
          simp [text, tool]

theorem truncateToolOutput_eq_none_iff (rawOutput : String) :
    truncateToolOutput rawOutput = none ↔ Text.Straddles maxToolOutputLen rawOutput.toList := by
  rw [truncateToolOutput]
  split
  · next long => rw [Option.map_eq_none_iff, Text.takeBytes_eq_none_iff (Nat.le_of_lt long)]
  · next short =>
      apply iff_of_false (Option.some_ne_none _)
      rintro ⟨before, character, after, split, -, above⟩
      rw [split, Text.byteLength_append, Text.byteLength_cons] at short
      omega

/-! ## Events -/

theorem toolResultBlock_eq (event : Value) :
    toolResultBlock event =
      (messageBlocks event).head?.filter fun block => block.getStr "type" = some "tool_result" := by
  rw [toolResultBlock, messageBlocks]
  cases event.get "message" with
  | none => rfl
  | some message =>
      cases found : message.getArray "content" with
      | none => simp [found]
      | some blocks =>
          cases blocks with
          | nil => simp [found]
          | cons block blocks =>
              by_cases result : block.getStr "type" = some "tool_result" <;>
                simp [found, result, Option.filter]

variable {event : Value} {render : Value → String}

theorem parse_assistant (typed : event.getStr "type" = some "assistant") :
    parseClaudeStreamJson render event = some ((messageBlocks event).flatMap assistantBlock) := by
  rw [parseClaudeStreamJson, typed]
  rfl

theorem parse_user (typed : event.getStr "type" = some "user") :
    parseClaudeStreamJson render event =
      match (messageBlocks event).head?.filter fun block =>
        block.getStr "type" = some "tool_result" with
      | none => some []
      | some block =>
          (truncateToolOutput (rawToolOutput render (block.get "content"))).map fun toolOutput =>
            [.toolResult "unknown" toolOutput (block.getStr "tool_use_id")] := by
  rw [parseClaudeStreamJson, typed, ← toolResultBlock_eq]
  rfl

theorem parse_other {render : Value → String} {event : Value}
    (notAssistant : event.getStr "type" ≠ some "assistant")
    (notUser : event.getStr "type" ≠ some "user") :
    ∃ chunks, parseClaudeStreamJson render event = some chunks ∧
      chunks.filterMap chunkMark = [] := by
  rw [parseClaudeStreamJson]
  split
  · next typed => exact absurd typed notAssistant
  · split
    · dsimp only
      split
      · exact ⟨_, rfl, rfl⟩
      · exact ⟨_, rfl, rfl⟩
    · exact ⟨_, rfl, rfl⟩
  · exact ⟨_, rfl, rfl⟩
  · exact ⟨_, rfl, rfl⟩
  · next typed => exact absurd typed notUser
  · exact ⟨_, rfl, rfl⟩

theorem parseClaudeStreamJson_eq_none_iff (render : Value → String) (event : Value) :
    parseClaudeStreamJson render event = none ↔ ¬CutsCleanly render event := by
  by_cases user : event.getStr "type" = some "user"
  · rw [parse_user user, CutsCleanly]
    cases first : (messageBlocks event).head? with
    | none => simp
    | some block =>
        by_cases result : block.getStr "type" = some "tool_result"
        · simp [user, result, Option.filter, truncateToolOutput_eq_none_iff]
        · simp [result, Option.filter]
  · refine iff_of_false ?_ (fun unclean => unclean fun typed => absurd typed user)
    by_cases assistant : event.getStr "type" = some "assistant"
    · rw [parse_assistant assistant]
      exact Option.some_ne_none _
    · rcases @parse_other render event assistant user with ⟨chunks, parsed, -⟩
      rw [parsed]
      exact Option.some_ne_none _

variable {chunks : List MessageChunk}

theorem userBlocks_marks (render : Value → String) {blocks : List Value}
    (parsed : (match blocks.head?.filter fun block =>
        block.getStr "type" = some "tool_result" with
      | none => some []
      | some block =>
          (truncateToolOutput (rawToolOutput render (block.get "content"))).map fun toolOutput =>
            [MessageChunk.toolResult "unknown" toolOutput (block.getStr "tool_use_id")]) =
      some chunks) :
    (chunks.filterMap chunkMark).Sublist (blocks.filterMap userMark) ∧
      (chunks.filterMap chunkMark = blocks.filterMap userMark ↔
        ∀ block ∈ blocks.tail, block.getStr "type" ≠ some "tool_result") := by
  cases blocks with
  | nil =>
      cases parsed
      simp
  | cons block blocks =>
      have absent : blocks.filterMap userMark = [] ↔
          ∀ block ∈ blocks, block.getStr "type" ≠ some "tool_result" := by
        rw [List.filterMap_eq_nil_iff]
        apply forall₂_congr
        intro block _
        rw [userMark]
        split
        · next result => exact iff_of_false (Option.some_ne_none _) (fun other => other result)
        · next other => exact iff_of_true rfl other
      by_cases result : block.getStr "type" = some "tool_result"
      · have shown : chunks.filterMap chunkMark = [.result (block.getStr "tool_use_id")] := by
          simp only [List.head?_cons, Option.filter, result, decide_true, if_true] at parsed
          rcases Option.map_eq_some_iff.mp parsed with ⟨toolOutput, -, rfl⟩
          rfl
        rw [shown, List.filterMap_cons, userMark, if_pos result, List.tail_cons, ← absent]
        refine ⟨List.Sublist.cons_cons _ (List.nil_sublist _), ?_⟩
        simp [eq_comm]
      · have shown : chunks = [] := by
          simpa [Option.filter, result, eq_comm] using parsed
        rw [shown, List.filterMap_cons, userMark, if_neg result, List.tail_cons, ← absent]
        exact ⟨List.nil_sublist _, eq_comm⟩

/-- An event shows some of its blocks, and all of them unless it has a tool result behind
its first block or a call without a name. -/
theorem parseClaudeStreamJson_marks (parsed : parseClaudeStreamJson render event = some chunks) :
    (chunks.filterMap chunkMark).Sublist (eventMarks event) ∧
      (chunks.filterMap chunkMark = eventMarks event ↔ OneResultFirst event) := by
  by_cases assistant : event.getStr "type" = some "assistant"
  · have notUser : event.getStr "type" ≠ some "user" := by
      rw [assistant]
      exact fun same => absurd (Option.some.inj same) (by decide)
    rw [parse_assistant assistant] at parsed
    cases parsed
    have marks : ((messageBlocks event).flatMap assistantBlock).filterMap chunkMark =
        (messageBlocks event).flatMap fun block =>
          (assistantBlock block).filterMap chunkMark := by
      rw [List.filterMap_flatMap]
    have whole : eventMarks event =
        (messageBlocks event).flatMap fun block => (assistantMark block).toList := by
      rw [eventMarks, if_pos assistant, List.filterMap_eq_flatMap_toList]
    rw [marks, whole]
    rcases flatMap_sublist_iff fun block (_ : block ∈ messageBlocks event) =>
      (assistantBlock_marks block).1 with ⟨inside, same⟩
    refine ⟨inside, same.trans ?_⟩
    constructor
    · intro each
      exact ⟨fun _ block member => (assistantBlock_marks block).2.mp (each block member),
        fun user => absurd user notUser⟩
    · intro plain block member
      exact (assistantBlock_marks block).2.mpr (plain.named assistant block member)
  · by_cases user : event.getStr "type" = some "user"
    · rw [parse_user user] at parsed
      rw [eventMarks, if_neg assistant, if_pos user]
      rcases userBlocks_marks render parsed with ⟨inside, same⟩
      refine ⟨inside, same.trans ?_⟩
      constructor
      · intro first
        exact ⟨fun typed => absurd typed assistant, fun _ => first⟩
      · intro plain
        exact plain.first user
    · rcases @parse_other render event assistant user with ⟨others, found, nothing⟩
      rw [found] at parsed
      cases parsed
      rw [eventMarks, if_neg assistant, if_neg user, nothing]
      refine ⟨List.Sublist.refl _, iff_of_true rfl ?_⟩
      exact ⟨fun typed => absurd typed assistant, fun typed => absurd typed user⟩

/-! ## Transcripts -/

variable {ε : Type} {library : Library ε}

def transcript (events : List Value) : List (NdjsonStream.Item ε) :=
  events.map .value

theorem isSome_eventChunks (library : Library ε) (events : List Value) :
    (eventChunks library (transcript events)).isSome = true ↔
      ∀ event ∈ events, CutsCleanly library.render event := by
  induction events with
  | nil => simp [transcript, eventChunks]
  | cons event rest induction =>
      rw [transcript, List.map_cons, eventChunks, ← transcript, List.forall_mem_cons, ← induction]
      cases parsed : parseClaudeStreamJson library.render event with
      | none =>
          have unclean := (parseClaudeStreamJson_eq_none_iff library.render event).mp parsed
          simp [unclean]
      | some chunks =>
          have clean : CutsCleanly library.render event := by
            by_contra unclean
            rw [(parseClaudeStreamJson_eq_none_iff library.render event).mpr unclean] at parsed
            cases parsed
          cases eventChunks library (transcript rest) with
          | none => simp
          | some others => simp [clean]

theorem eventChunks_marks {events : List Value}
    (parsed : eventChunks library (transcript events) = some chunks) :
    (chunks.filterMap chunkMark).Sublist (events.flatMap eventMarks) ∧
      (chunks.filterMap chunkMark = events.flatMap eventMarks ↔
        ∀ event ∈ events, OneResultFirst event) := by
  induction events generalizing chunks with
  | nil =>
      cases parsed
      simp
  | cons event rest induction =>
      rw [transcript, List.map_cons, eventChunks, ← transcript] at parsed
      rcases Option.bind_eq_some_iff.mp parsed with ⟨first, found, parsed⟩
      rcases Option.bind_eq_some_iff.mp parsed with ⟨others, later, same⟩
      cases same
      rcases parseClaudeStreamJson_marks found with ⟨inFirst, sameFirst⟩
      rcases induction later with ⟨inLater, sameLater⟩
      rw [List.filterMap_append, List.flatMap_cons, List.forall_mem_cons, ← sameFirst, ← sameLater]
      exact ⟨inFirst.append inLater, append_eq_iff_of_sublist inFirst inLater⟩

theorem shows_of_inOrder {events : List Value}
    (inOrder : chunks.filterMap chunkMark = events.flatMap eventMarks) : Shows events chunks where
  inOrder := inOrder
  matched := by
    intro toolName toolInput callId _ listed
    rw [← inOrder] at listed
    rcases List.mem_filterMap.mp listed with ⟨chunk, member, marked⟩
    cases chunk with
    | toolResult resultName toolOutput toolCallId =>
        cases marked
        exact ⟨resultName, toolOutput, member⟩
    | assistant content flush => cases marked
    | system content => cases marked
    | thinking content => cases marked
    | result fields => cases marked
    | rateLimit rateLimitInfo => cases marked
    | tool toolName toolInput toolCallId => cases marked
    | workflowDispatch workerConversationId workflowName => cases marked

/-- The chunks of a transcript show its blocks exactly if every tool result is the first
block of its message, every call has a name, and no output is cut inside a character. -/
theorem eventChunks_shows_iff (library : Library ε) (events : List Value) :
    (∃ chunks, eventChunks library (transcript events) = some chunks ∧ Shows events chunks) ↔
      ∀ event ∈ events, OneResultFirst event ∧ CutsCleanly library.render event := by
  constructor
  · rintro ⟨chunks, parsed, showing⟩
    have clean := isSome_eventChunks library events
    intro event member
    refine ⟨(eventChunks_marks parsed).2.mp showing.inOrder event member, ?_⟩
    exact clean.mp (by rw [parsed]; rfl) event member
  · intro each
    have clean := (isSome_eventChunks library events).mpr fun event member => (each event member).2
    rcases Option.isSome_iff_exists.mp clean with ⟨chunks, parsed⟩
    refine ⟨chunks, parsed, shows_of_inOrder ?_⟩
    exact (eventChunks_marks parsed).2.mpr fun event member => (each event member).1

def callBlock (callId : String) : Value :=
  .object [("type", .string "tool_use"), ("id", .string callId), ("name", .string "Bash")]

def resultBlock (callId : String) : Value :=
  .object [("type", .string "tool_result"), ("tool_use_id", .string callId),
    ("content", .string "done")]

def messageOf (role : String) (blocks : List Value) : Value :=
  .object [("type", .string role), ("message", .object [("content", .array blocks)])]

/-- Two tools are called at once, and their results come in one message. -/
def parallelCalls : List Value :=
  [messageOf "assistant" [callBlock "t1", callBlock "t2"],
    messageOf "user" [resultBlock "t1", resultBlock "t2"]]

def idleLibrary : Library Unit where
  fromStr _ := .error ()
  render _ := ""
  showError _ := ""
  quote text := text

/-- The second of two results is not shown, and its call is left open. -/
theorem eventChunks_parallelCalls :
    eventChunks idleLibrary (transcript parallelCalls) = some
        [.tool "Bash" (some (.object [])) (some "t1"),
          .tool "Bash" (some (.object [])) (some "t2"),
          .toolResult "unknown" "done" (some "t1")] ∧
      ¬∃ chunks, eventChunks idleLibrary (transcript parallelCalls) = some chunks ∧
        Shows parallelCalls chunks := by
  have found : eventChunks idleLibrary (transcript parallelCalls) = some
      [.tool "Bash" (some (.object [])) (some "t1"), .tool "Bash" (some (.object [])) (some "t2"),
        .toolResult "unknown" "done" (some "t1")] := by
    decide +kernel
  refine ⟨found, ?_⟩
  rintro ⟨chunks, parsed, showing⟩
  rw [found] at parsed
  cases parsed
  exact absurd showing.inOrder (by decide +kernel)

end Claude

end HarnessAgent
