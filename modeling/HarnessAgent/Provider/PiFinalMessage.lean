import HarnessAgent.Provider.PiProvider
import Mathlib.Algebra.Order.Ring.Rat

/-! # The final message of Pi

The last event of Pi has the final message of the agent. Its text was streamed in parts,
and what is missing is sent after them, before the result with the counts of tokens.
-/

namespace HarnessAgent

namespace Pi

open Provider

/-! ## What the message says -/

def lastAssistant (event : Value) : Option Value :=
  (event.getArray "messages").bind fun messages =>
    messages.reverse.find? fun message => message.getStr "role" = some "assistant"

def finalText (message : Value) : String :=
  String.join (((message.getArray "content").getD []).filterMap textBlock)

def StoppedWithError (message : Value) : Prop :=
  message.getStr "stopReason" = some "error" ∨ message.getStr "stopReason" = some "aborted"

def rational : Number → Rat
  | .posInt value => value
  | .negInt magnitude => -magnitude
  | .float value => value.value

def statedCount : Option Value → Nat
  | some (.number number) =>
      if 0 ≤ rational number ∧ (rational number).den = 1 then (rational number).num.toNat else 0
  | _ => 0

def CountsAre (message : Value) (fields : ResultFields) : Prop :=
  ∀ usage, message.get "usage" = some usage → ∃ tokens, fields.tokens = some tokens ∧
    tokens.input = statedCount (usage.get "input") ∧
    tokens.output = statedCount (usage.get "output") ∧
    tokens.total = some (statedCount (usage.get "totalTokens"))

structure Carries (message : Value) (fields : ResultFields) : Prop where
  stopReason : fields.stopReason = message.getStr "stopReason"
  errors : StoppedWithError message →
    fields.errors = (message.getStr "errorMessage").map fun error => [error]
  counts : CountsAre message fields

/-! ## What the lines stream -/

section Lines

variable (render : Value → String) (fromStr : String → Option Value)

def lineEvent (line : String) : Option PiEvent :=
  (lineValue fromStr line).bind fun event =>
    (event.getStr "type").bind fun eventType =>
      if eventType = "extension_ui_request" ∨ eventType = "response" then none
      else parsePiEventJson event

def lineChunks (line : String) : List MessageChunk :=
  match lineValue fromStr line with
  | none => []
  | some event =>
      if event.getStr "type" = some "extension_ui_request" then uiChunks event
      else ((lineEvent fromStr line).map (mapPiEvent render)).getD []

def textAfterLine (turnText line : String) : String :=
  ((lineEvent fromStr line).map (nextTurnText turnText)).getD turnText

def isTurnStart (line : String) : Bool :=
  match lineEvent fromStr line with
  | some .turnStart => true
  | _ => false

def lineDelta (line : String) : Option String :=
  match lineEvent fromStr line with
  | some (.textDelta delta) => some delta
  | _ => none

def sinceTurnStart (lines : List String) : List String :=
  lines.rtakeWhile fun line => !isTurnStart fromStr line

def turnDeltas (lines : List String) : String :=
  String.join ((sinceTurnStart fromStr lines).filterMap (lineDelta fromStr))

end Lines

def streamedText : MessageChunk → Option String
  | .assistant content none => some content
  | _ => none

def assistantText : MessageChunk → Option String
  | .assistant content _ => some content
  | _ => none

/-- After the chunks of the lines comes the tail. With the chunks for the deltas of the last
turn it makes up the text of the message, which the result carries. -/
def Conveys (render : Value → String) (fromStr : String → Option Value) (lines : List String)
    (message : Value) (chunks : List MessageChunk) : Prop :=
  ∃ tail fields, chunks = lines.flatMap (lineChunks render fromStr) ++ tail ++ [.result fields] ∧
    String.join (((sinceTurnStart fromStr lines).flatMap (lineChunks render fromStr)).filterMap
      streamedText ++ tail.filterMap assistantText) = finalText message ∧
    Carries message fields

/-! ## Counts -/

/-- A count that the result can carry: zero, or an integer of 32 bits. -/
def CountFits : Option Value → Prop
  | some (.number (.posInt count)) => count < 2 ^ 32
  | other => statedCount other = 0

theorem statedCount_posInt (count : Nat) :
    statedCount (some (.number (.posInt count))) = count := by
  have natural : 0 ≤ rational (.posInt count) ∧ (rational (.posInt count)).den = 1 :=
    ⟨Nat.cast_nonneg count, Rat.den_natCast count⟩
  rw [statedCount, if_pos natural, rational, Rat.num_natCast, Int.toNat_natCast]

theorem getU32_eq_statedCount_iff (usage : Value) (key : String) :
    getU32 usage key = statedCount (usage.get key) ↔ CountFits (usage.get key) := by
  unfold getU32
  cases usage.get key with
  | none => exact iff_of_true rfl rfl
  | some value =>
      cases value with
      | number number =>
          cases number with
          | posInt count =>
              rw [statedCount_posInt, Option.bind_some, Value.asU64, Option.getD_some]
              exact Nat.mod_eq_iff_lt (by decide)
          | negInt magnitude => exact eq_comm
          | float value => exact eq_comm
      | _ => exact iff_of_true rfl rfl

/-! ## Runs -/

section Runs

variable {render : Value → String} {fromStr : String → Option Value}

theorem takeLine_eq (running : agentEnd? fromStr line = none) (sessionId : Option String)
    (turnText : String) :
    takeLine render fromStr sessionId turnText line =
      .goOn (lineChunks render fromStr line) (textAfterLine fromStr turnText line) := by
  unfold takeLine lineChunks textAfterLine lineEvent
  cases value : lineValue fromStr line with
  | none => rfl
  | some event =>
      dsimp only
      rw [Option.bind_some]
      cases named : event.getStr "type" with
      | none => rfl
      | some eventType =>
          simp only [Option.bind_some, Option.some_inj]
          by_cases request : eventType = "extension_ui_request"
          · rw [if_pos request, if_pos request, if_pos (.inl request)]
            rfl
          · rw [if_neg request, if_neg request]
            by_cases answer : eventType = "response"
            · rw [if_pos answer, if_pos (.inr answer)]
              rfl
            · rw [if_neg answer, if_neg (not_or.mpr ⟨request, answer⟩)]
              cases parsed : parsePiEventJson event with
              | none => rfl
              | some piEvent =>
                  cases piEvent with
                  | agentEnd last =>
                      have isEnd := (parsePiEventJson_agentEnd.mp parsed).1
                      rw [agentEnd?, value, Option.bind_some, if_pos isEnd] at running
                      cases running
                  | _ => rfl

variable {sessionId : Option String}

theorem eventLoop_of_running {session : Session} {last : String}
    {lastMessage : Option PiAssistantMessage} (ended : agentEnd? fromStr last = some lastMessage)
    (rest : List (Except String String)) {lines : List String}
    (running : ∀ line ∈ lines, agentEnd? fromStr line = none) {index : Nat}
    (uncancelled : ∀ later, index ≤ later → later ≤ index + lines.length →
      session.cancelledAt later = false) (turnText : String) :
    eventLoop render fromStr session sessionId index turnText
        (lines.map .ok ++ .ok last :: rest) =
      lines.flatMap (lineChunks render fromStr) ++
        (streamingTail (lines.foldl (textAfterLine fromStr) turnText) lastMessage ++
          [.result (buildResultChunk sessionId lastMessage)]) := by
  induction lines generalizing index turnText with
  | nil =>
      have goesOn := uncancelled index (Nat.le_refl _) (Nat.le_add_right _ _)
      rw [List.map_nil, List.nil_append, eventLoop, goesOn, if_neg Bool.false_ne_true]
      rw [takeLine_of_agentEnd ended]
      rfl
  | cons line lines induction =>
      have goesOn := uncancelled index (Nat.le_refl _) (Nat.le_add_right _ _)
      rcases List.forall_mem_cons.mp running with ⟨here, later⟩
      rw [List.map_cons, List.cons_append, eventLoop, goesOn, if_neg Bool.false_ne_true]
      rw [takeLine_eq here]
      dsimp only
      rw [List.flatMap_cons, List.append_assoc, List.foldl_cons]
      congr 1
      apply induction later
      intro next above below
      rw [List.length_cons] at uncancelled
      exact uncancelled next (by omega) (by omega)

theorem foldl_textAfterLine (lines : List String) :
    lines.foldl (textAfterLine fromStr) "" = turnDeltas fromStr lines := by
  induction lines using List.reverseRecOn with
  | nil => rfl
  | append_singleton lines line induction =>
      rw [List.foldl_append, List.foldl_cons, List.foldl_nil, induction]
      unfold turnDeltas sinceTurnStart
      rw [List.rtakeWhile_concat]
      unfold textAfterLine isTurnStart
      cases event : lineEvent fromStr line with
      | none => simp [lineDelta, event]
      | some piEvent =>
          cases piEvent with
          | textDelta delta =>
              apply String.toList_inj.mp
              simp [lineDelta, event, nextTurnText]
          | _ => simp [lineDelta, event, nextTurnText]

theorem streamedText_lineChunks (line : String) :
    (lineChunks render fromStr line).filterMap streamedText = (lineDelta fromStr line).toList := by
  unfold lineChunks lineDelta
  cases value : lineValue fromStr line with
  | none => rw [lineEvent, value]; rfl
  | some event =>
      dsimp only
      split
      · next request =>
          rw [lineEvent, value, Option.bind_some, request, Option.bind_some, if_pos (.inl rfl)]
          unfold uiChunks
          split
          · dsimp only
            split
            · rfl
            · rfl
          · rfl
      · cases lineEvent fromStr line with
        | none => rfl
        | some piEvent =>
            cases piEvent with
            | toolExecutionEnd toolName result toolCallId isError => cases isError <;> rfl
            | _ => rfl

theorem streamedText_turn (lines : List String) :
    (lines.flatMap (lineChunks render fromStr)).filterMap streamedText =
      lines.filterMap (lineDelta fromStr) := by
  induction lines with
  | nil => rfl
  | cons line lines induction =>
      rw [List.flatMap_cons, List.filterMap_append, induction, streamedText_lineChunks,
        List.filterMap_cons]
      cases lineDelta fromStr line with
      | none => rfl
      | some delta => rfl

theorem streamingTail_completes (begins : turnText.toList <+: (String.join last.textBlocks).toList) :
    turnText.toList ++
        (((streamingTail turnText (some last)).filterMap assistantText).flatMap String.toList) =
      (String.join last.textBlocks).toList := by
  rcases begins with ⟨missing, whole⟩
  have isPrefix : turnText.toList.isPrefixOf (turnText.toList ++ missing) = true :=
    List.isPrefixOf_iff_prefix.mpr ⟨missing, rfl⟩
  simp only [streamingTail]
  rw [← whole, Text.byteLength_append]
  cases missing with
  | nil =>
      have same : ¬(Text.byteLength turnText.toList + Text.byteLength [] >
          Text.byteLength turnText.toList ∧
          turnText.toList.isPrefixOf (turnText.toList ++ []) = true) := by
        intro both
        exact absurd both.1 (Nat.lt_irrefl _)
      rw [if_neg same]
      rfl
  | cons first missing =>
      have longer : Text.byteLength turnText.toList + Text.byteLength (first :: missing) >
          Text.byteLength turnText.toList := by
        have counted := Text.length_le_byteLength (first :: missing)
        rw [List.length_cons] at counted
        omega
      have tail : (turnText.toList ++ first :: missing).drop turnText.length =
          first :: missing := by
        rw [← String.length_toList]
        exact List.drop_left
      rw [if_pos ⟨longer, isPrefix⟩, tail]
      simp [assistantText]

/-! ## The result -/

def parsedMessage (message usage : Value) : PiAssistantMessage where
  usage := {
    input := getU32 usage "input"
    output := getU32 usage "output"
    totalTokens := getU32 usage "totalTokens"
    costTotal :=
      (((usage.get "cost").bind fun cost => cost.get "total").bind Value.asF64).getD F64.zero }
  stopReason := message.getStr "stopReason"
  errorMessage := message.getStr "errorMessage"
  textBlocks := ((message.getArray "content").getD []).filterMap textBlock

variable {message : Value}

theorem parsePiAssistantMessage_eq (found : lastAssistant event = some message) :
    parsePiAssistantMessage event = (message.get "usage").map (parsedMessage message) := by
  unfold lastAssistant at found
  rcases Option.bind_eq_some_iff.mp found with ⟨messages, listed, last⟩
  unfold parsePiAssistantMessage
  rw [listed]
  dsimp only [Option.bind_eq_bind, Option.bind_some]
  rw [last, Option.bind_some]
  cases message.get "usage" with
  | none => rfl
  | some usage => rfl

theorem failed_parsedMessage_iff (message usage : Value) :
    (parsedMessage message usage).failed = true ↔ StoppedWithError message := by
  rw [PiAssistantMessage.failed, StoppedWithError, Bool.or_eq_true, decide_eq_true_iff,
    decide_eq_true_iff]
  rfl

theorem carries_parsedMessage_iff (stated : message.get "usage" = some usage) :
    Carries message (buildResultChunk sessionId (some (parsedMessage message usage))) ↔
      ∀ key, key ∈ ["input", "output", "totalTokens"] → CountFits (usage.get key) := by
  have counts : CountsAre message
      (buildResultChunk sessionId (some (parsedMessage message usage))) ↔
      getU32 usage "input" = statedCount (usage.get "input") ∧
        getU32 usage "output" = statedCount (usage.get "output") ∧
        getU32 usage "totalTokens" = statedCount (usage.get "totalTokens") := by
    constructor
    · intro carried
      rcases carried usage stated with ⟨tokens, same, input, output, total⟩
      cases same
      exact ⟨input, output, Option.some.inj total⟩
    · intro carried own again
      cases stated.symm.trans again
      exact ⟨_, rfl, carried.1, carried.2.1, congrArg some carried.2.2⟩
  have keys : (∀ key, key ∈ ["input", "output", "totalTokens"] → CountFits (usage.get key)) ↔
      CountFits (usage.get "input") ∧ CountFits (usage.get "output") ∧
        CountFits (usage.get "totalTokens") := by
    simp only [List.forall_mem_cons, List.not_mem_nil, false_implies, implies_true, and_true]
  rw [keys, ← getU32_eq_statedCount_iff, ← getU32_eq_statedCount_iff,
    ← getU32_eq_statedCount_iff, ← counts]
  constructor
  · intro carried
    exact carried.counts
  · intro carried
    refine ⟨rfl, ?_, carried⟩
    intro stopped
    exact if_pos ((failed_parsedMessage_iff message usage).mpr stopped)

theorem carries_missing_iff (absent : message.get "usage" = none) :
    Carries message (buildResultChunk sessionId none) ↔ message.getStr "stopReason" = none := by
  constructor
  · intro carried
    exact carried.stopReason.symm
  · intro unstated
    refine ⟨unstated.symm, ?_, ?_⟩
    · intro stopped
      rw [StoppedWithError, unstated] at stopped
      rcases stopped with impossible | impossible
      · cases impossible
      · cases impossible
    · intro usage stated
      rw [absent] at stated
      cases stated

theorem conveys_iff {lines : List String} {tail : List MessageChunk} {fields : ResultFields} :
    Conveys render fromStr lines message
        (lines.flatMap (lineChunks render fromStr) ++ (tail ++ [.result fields])) ↔
      (turnDeltas fromStr lines).toList ++ (tail.filterMap assistantText).flatMap String.toList =
        (finalText message).toList ∧ Carries message fields := by
  have text : ∀ tail : List MessageChunk,
      String.join (((sinceTurnStart fromStr lines).flatMap
        (lineChunks render fromStr)).filterMap streamedText ++ tail.filterMap assistantText) =
          finalText message ↔
      (turnDeltas fromStr lines).toList ++ (tail.filterMap assistantText).flatMap String.toList =
        (finalText message).toList := by
    intro tail
    rw [streamedText_turn, ← String.toList_inj, String.toList_join, List.flatMap_append,
      turnDeltas, String.toList_join]
  constructor
  · intro conveys
    rcases conveys with ⟨other, own, whole, joined, carried⟩
    rw [List.append_assoc] at whole
    rcases List.append_inj' (List.append_cancel_left whole) rfl with ⟨rfl, same⟩
    cases same
    exact ⟨(text tail).mp joined, carried⟩
  · intro both
    exact ⟨tail, fields, (List.append_assoc _ _ _).symm, (text tail).mpr both.1, both.2⟩

/-- A message is reported whole if its usage is there and its counts fit, or if nothing of
it is left to report. -/
def Reportable (message : Value) (streamed : String) : Prop :=
  (∃ usage, message.get "usage" = some usage ∧
    ∀ key, key ∈ ["input", "output", "totalTokens"] → CountFits (usage.get key)) ∨
  (message.get "usage" = none ∧ message.getStr "stopReason" = none ∧
    streamed = finalText message)

theorem eventLoop_conveys_iff {session : Session} {sessionId : Option String}
    {lines : List String} {last : String} {event message : Value}
    (rest : List (Except String String))
    (running : ∀ line ∈ lines, agentEnd? fromStr line = none)
    (uncancelled : ∀ index, index ≤ lines.length → session.cancelledAt index = false)
    (value : lineValue fromStr last = some event)
    (ends : event.getStr "type" = some "agent_end")
    (found : lastAssistant event = some message)
    (begins : (turnDeltas fromStr lines).toList <+: (finalText message).toList) :
    Conveys render fromStr lines message
        (eventLoop render fromStr session sessionId 0 "" (lines.map .ok ++ .ok last :: rest)) ↔
      Reportable message (turnDeltas fromStr lines) := by
  have ended : agentEnd? fromStr last = some (parsePiAssistantMessage event) := by
    rw [agentEnd?, value, Option.bind_some, if_pos ends]
  have ranFrom : ∀ later, 0 ≤ later → later ≤ 0 + lines.length →
      session.cancelledAt later = false := by
    intro later _ below
    exact uncancelled later (by omega)
  rw [eventLoop_of_running ended rest running ranFrom, foldl_textAfterLine, conveys_iff,
    parsePiAssistantMessage_eq found, Reportable]
  cases stated : message.get "usage" with
  | none =>
      rw [Option.map_none, carries_missing_iff stated, streamingTail, List.filterMap_nil,
        List.flatMap_nil, List.append_nil, String.toList_inj]
      constructor
      · intro both
        exact .inr ⟨rfl, both.2, both.1⟩
      · intro reportable
        rcases reportable with ⟨usage, impossible, -⟩ | ⟨-, unstated, streamed⟩
        · cases impossible
        · exact ⟨streamed, unstated⟩
  | some usage =>
      have whole : (turnDeltas fromStr lines).toList ++ ((streamingTail (turnDeltas fromStr lines)
          (some (parsedMessage message usage))).filterMap assistantText).flatMap String.toList =
            (finalText message).toList := streamingTail_completes begins
      rw [Option.map_some, carries_parsedMessage_iff stated, and_iff_right whole]
      constructor
      · intro fits
        exact .inl ⟨usage, rfl, fits⟩
      · intro reportable
        rcases reportable with ⟨own, same, fits⟩ | ⟨impossible, -⟩
        · cases same
          exact fits
        · cases impossible

end Runs

def sampleLines (usage : Members) (line : String) : Option Value :=
  if line = "delta" then
    some (.object [("type", .string "message_update"),
      ("assistantMessageEvent",
        .object [("type", .string "text_delta"), ("delta", .string "Hel")])])
  else
    some (.object [("type", .string "agent_end"),
      ("messages", .array [.object ([("role", .string "assistant"),
        ("content", .array [.object [("type", .string "text"), ("text", .string "Hello")]]),
        ("stopReason", .string "stop")] ++ usage)])])

theorem eventLoop_conveys_hello :
    Conveys (fun _ => "") (sampleLines [("usage", .object [("input", .number (.posInt 3))])])
      ["delta"] (.object [("role", .string "assistant"),
        ("content", .array [.object [("type", .string "text"), ("text", .string "Hello")]]),
        ("stopReason", .string "stop"), ("usage", .object [("input", .number (.posInt 3))])])
      (eventLoop (fun _ => "")
        (sampleLines [("usage", .object [("input", .number (.posInt 3))])]) { lines := [] } none 0
          "" (["delta"].map .ok ++ .ok "end" :: [])) := by
  apply (eventLoop_conveys_iff [] ?_ (fun _ _ => rfl) rfl rfl rfl ?_).mpr
  · refine .inl ⟨_, rfl, ?_⟩
    rw [List.forall_mem_cons, List.forall_mem_cons, List.forall_mem_singleton]
    exact ⟨(by decide : 3 < 2 ^ 32), rfl, rfl⟩
  · intro line member
    rw [List.mem_singleton.mp member]
    rfl
  · exact ⟨['l', 'o'], by decide +kernel⟩

theorem usage_missing_not_conveyed : ∃ message,
    lineValue (sampleLines []) "end" = some (.object [("type", .string "agent_end"),
      ("messages", .array [message])]) ∧ message.getStr "role" = some "assistant" ∧
    (turnDeltas (sampleLines []) ["delta"]).toList <+: (finalText message).toList ∧
    ¬Conveys (fun _ => "") (sampleLines []) ["delta"] message
      (eventLoop (fun _ => "") (sampleLines []) { lines := [] } none 0 ""
        (["delta"].map .ok ++ .ok "end" :: [])) := by
  refine ⟨_, rfl, rfl, ⟨['l', 'o'], by decide +kernel⟩, ?_⟩
  intro conveys
  have ran : eventLoop (fun _ => "") (sampleLines []) { lines := [] } none 0 ""
      (["delta"].map .ok ++ .ok "end" :: []) =
        ["delta"].flatMap (lineChunks (fun _ => "") (sampleLines [])) ++
          ([] ++ [.result (buildResultChunk none none)]) := rfl
  rw [ran] at conveys
  have carried := (conveys_iff.mp conveys).2.stopReason
  cases carried

end Pi

end HarnessAgent
