import HarnessAgent.Foundation.Broadcast
import HarnessAgent.Foundation.EventRun
import HarnessAgent.Provider.JsonRpcClient
import HarnessAgent.Provider.MessageChunk

/-! # Copilot events

The event loop of a Copilot query. The reader broadcasts the notifications of the
subprocess; the loop takes them from its receiver, forwards the chunks of its
session's events, and ends at the idle event, at the deadline, or when the query is
cancelled.
-/

namespace HarnessAgent

namespace Copilot

open Provider

/-! ## Mapping -/

inductive CopilotEvent
  | assistantMessageDelta (deltaContent : Option String)
  | assistantReasoningDelta (deltaContent : Option String)
  | assistantUsage (inputTokens outputTokens : Option F64)
  | toolExecutionStart (toolCallId toolName : String) (arguments : Option Value)
  | toolExecutionComplete (toolCallId : String) (success : Bool)
      (detailedContent content : Option String)
  | sessionError (message : Option String)
  | sessionCompactionStart
  | other (eventType : String)

def parseSessionEvent (eventType : String) (data : Value) : CopilotEvent :=
  match eventType with
  | "assistant.message_delta" => .assistantMessageDelta (data.getStr "deltaContent")
  | "assistant.reasoning_delta" => .assistantReasoningDelta (data.getStr "deltaContent")
  | "assistant.usage" =>
      .assistantUsage ((data.get "inputTokens").bind Value.asF64)
        ((data.get "outputTokens").bind Value.asF64)
  | "tool.execution_start" =>
      .toolExecutionStart ((data.getStr "toolCallId").getD "")
        ((data.getStr "toolName").getD "") (data.get "arguments")
  | "tool.execution_complete" =>
      .toolExecutionComplete ((data.getStr "toolCallId").getD "")
        (((data.get "success").bind Value.asBool).getD true)
        ((data.get "result").bind fun result => result.getStr "detailedContent")
        ((data.get "result").bind fun result => result.getStr "content")
  | "session.error" => .sessionError (data.getStr "message")
  | "session.compaction_start" => .sessionCompactionStart
  | other => .other other

def normalizeCopilotUsage (inputTokens outputTokens : Option F64) : Option TokenUsage :=
  if inputTokens.isNone && outputTokens.isNone then none
  else some {
    input := (inputTokens.getD F64.zero).toUnsigned 64
    output := (outputTokens.getD F64.zero).toUnsigned 64 }

structure EventMapperContext where
  toolCallIdToName : List (String × String) := []
  capturedTokens : Option TokenUsage := none
  errorMessage : Option String := none

def deltaText (deltaContent : Option String) : Option String :=
  deltaContent.filter (· ≠ "")

def mapCopilotEvent (context : EventMapperContext) :
    CopilotEvent → List MessageChunk × EventMapperContext
  | .assistantMessageDelta deltaContent =>
      (((deltaText deltaContent).map fun content => .assistant content none).toList, context)
  | .assistantReasoningDelta deltaContent =>
      (((deltaText deltaContent).map fun content => .thinking content).toList, context)
  | .assistantUsage inputTokens outputTokens =>
      match normalizeCopilotUsage inputTokens outputTokens with
      | some usage => ([], { context with capturedTokens := some usage })
      | none => ([], context)
  | .toolExecutionStart toolCallId toolName arguments =>
      let toolInput := match arguments with
        | some .null => .object []
        | none => .object []
        | some value => value
      ([.tool toolName (some toolInput) (some toolCallId)],
        { context with toolCallIdToName := (toolCallId, toolName) :: context.toolCallIdToName })
  | .toolExecutionComplete toolCallId success detailedContent content =>
      let toolName := (context.toolCallIdToName.lookup toolCallId).getD "unknown"
      let rawOutput := (detailedContent.or content).getD ""
      let warning := if success then []
        else [.system ("⚠️ Tool " ++ toolName ++ " failed")]
      let toolOutput := if success then rawOutput else "❌ " ++ rawOutput
      (warning ++ [.toolResult toolName toolOutput (some toolCallId)], context)
  | .sessionError message =>
      ([], { context with
        errorMessage := some ((message.filter (· ≠ "")).getD "Copilot session error") })
  | .sessionCompactionStart => ([.system "⚙️ Compacting context…"], context)
  | .other _ => ([], context)

/-! ## The event loop -/

def sessionEvent? (sessionId : String) (notification : Value) : Option (String × Value) :=
  if (notification.getStr "method").getD "" = "session.event" then
    let params := notification.index "params"
    if (params.getStr "sessionId").getD "" ≠ sessionId then none
    else
      let event := params.index "event"
      some ((event.getStr "type").getD "", event.index "data")
  else none

def idleType : String := "session.idle"

def channelCapacity : Nat := 256

/-- Where a query stands: its prompt is being sent, it is about to start a turn of
its loop, it waits for a notification, or it has returned. -/
inductive WaitMode
  | sending
  | loopHead
  | receiving
  | returned (result : Except RpcError (Option Value))
  deriving DecidableEq

structure WaitState where
  channel : Broadcast.Channel Value := {}
  cancelled : Bool := false
  mode : WaitMode := .sending
  /-- The batches of chunks handed to the consumer. -/
  forwarded : List (List MessageChunk) := []
  context : EventMapperContext := {}

/-- One step of the reader, of whoever cancels, or of the query. The client keeps a
sender of the channel, so the receiver never finds it closed. -/
inductive WaitEvent
  | notify (notification : Value)
  | cancel
  | sent (result : Except RpcError Unit)
  | turn (expired : Bool)
  | receive
  | timeout

def takeNotification (sessionId : String) (state : WaitState) (notification : Value) :
    WaitState :=
  match sessionEvent? sessionId notification with
  | none => { state with mode := .loopHead }
  | some (eventType, data) =>
      if eventType = idleType then { state with mode := .returned (.ok (some data)) }
      else
        let mapped := mapCopilotEvent state.context (parseSessionEvent eventType data)
        { state with
          mode := .loopHead
          context := mapped.2
          forwarded :=
            if mapped.1.isEmpty then state.forwarded else state.forwarded ++ [mapped.1] }

def waitStep (sessionId : String) (state : WaitState) : WaitEvent → WaitState
  | .notify notification => { state with channel := state.channel.send notification }
  | .cancel => { state with cancelled := true }
  | .sent result =>
      match state.mode with
      | .sending =>
          match result with
          | .ok () => { state with mode := .loopHead }
          | .error error => { state with mode := .returned (.error error) }
      | _ => state
  | .turn expired =>
      match state.mode with
      | .loopHead =>
          if state.cancelled then { state with mode := .returned (.ok none) }
          else if expired then { state with mode := .returned (.error .timeout) }
          else { state with mode := .receiving }
      | _ => state
  | .receive =>
      match state.mode with
      | .receiving =>
          match state.channel.recv channelCapacity with
          | (.empty, _) => state
          | (.lagged _, channel) => { state with channel, mode := .returned (.ok none) }
          | (.value notification, channel) =>
              takeNotification sessionId { state with channel } notification
      | _ => state
  | .timeout =>
      match state.mode, state.channel.recv channelCapacity with
      | .receiving, (.empty, _) => { state with mode := .returned (.error .timeout) }
      | _, _ => state

def sendAndWait (sessionId : String) (state : WaitState) (events : List WaitEvent) : WaitState :=
  EventRun.run (waitStep sessionId) state events

/-! ## What the loop is for -/

def ownEvents (sessionId : String) (notifications : List Value) : List (String × Value) :=
  notifications.filterMap (sessionEvent? sessionId)

def beforeIdle (events : List (String × Value)) : List (String × Value) :=
  events.takeWhile fun event => event.1 ≠ idleType

def idleData? (events : List (String × Value)) : Option Value :=
  (events.find? fun event => event.1 = idleType).map Prod.snd

def contextAfter (context : EventMapperContext) : List (String × Value) → EventMapperContext
  | [] => context
  | (eventType, data) :: rest =>
      contextAfter (mapCopilotEvent context (parseSessionEvent eventType data)).2 rest

def chunksOf (context : EventMapperContext) : List (String × Value) → List MessageChunk
  | [] => []
  | (eventType, data) :: rest =>
      let mapped := mapCopilotEvent context (parseSessionEvent eventType data)
      mapped.1 ++ chunksOf mapped.2 rest

/-- The chunks of the session's events before the idle event are forwarded in order,
and all of them once the idle event is reported; the loop only stops without an
error at the idle event or when it is cancelled. -/
structure Delivers (sessionId : String) (start : EventMapperContext) (state : WaitState) :
    Prop where
  inOrder : state.forwarded.flatten <+:
    chunksOf start (beforeIdle (ownEvents sessionId state.channel.sent))
  complete : ∀ data, state.mode = .returned (.ok (some data)) →
    idleData? (ownEvents sessionId state.channel.sent) = some data ∧
      state.forwarded.flatten = chunksOf start (beforeIdle (ownEvents sessionId state.channel.sent))
  interrupted : state.mode = .returned (.ok none) → state.cancelled = true

/-- The receiver is not behind by more than the capacity when it receives, unless
the query is cancelled. -/
def KeepsUp (state : WaitState) (event : WaitEvent) : Prop :=
  event = .receive → state.mode = .receiving → state.channel.Lags channelCapacity →
    state.cancelled = true

/-! ## Events -/

theorem ownEvents_append (sessionId : String) (left right : List Value) :
    ownEvents sessionId (left ++ right) = ownEvents sessionId left ++ ownEvents sessionId right :=
  List.filterMap_append

theorem contextAfter_append (context : EventMapperContext) (left right : List (String × Value)) :
    contextAfter context (left ++ right) = contextAfter (contextAfter context left) right := by
  induction left generalizing context with
  | nil => rfl
  | cons event rest induction => exact induction _

theorem chunksOf_append (context : EventMapperContext) (left right : List (String × Value)) :
    chunksOf context (left ++ right) =
      chunksOf context left ++ chunksOf (contextAfter context left) right := by
  induction left generalizing context with
  | nil => rfl
  | cons event rest induction =>
      simp only [List.cons_append, chunksOf, contextAfter, induction, List.append_assoc]

def NoIdle (sessionId : String) (notifications : List Value) : Prop :=
  ∀ event ∈ ownEvents sessionId notifications, event.1 ≠ idleType

variable {read : List Value}

theorem beforeIdle_append (noIdle : NoIdle sessionId read) (more : List (String × Value)) :
    beforeIdle (ownEvents sessionId read ++ more) = ownEvents sessionId read ++ beforeIdle more :=
  List.takeWhile_append_of_pos fun event member => by simpa using noIdle event member

theorem idleData_append (noIdle : NoIdle sessionId read) (more : List (String × Value)) :
    idleData? (ownEvents sessionId read ++ more) = idleData? more := by
  have none : (ownEvents sessionId read).find? (fun event => event.1 = idleType) = none := by
    apply List.find?_eq_none.mpr
    intro event member
    simpa using noIdle event member
  rw [idleData?, List.find?_append, none, Option.none_or, idleData?]

/-! ## Steps of the loop -/

structure Forwarded (sessionId : String) (start : EventMapperContext) (state : WaitState)
    (read : List Value) : Prop where
  arrived : read <+: state.channel.sent
  noIdle : NoIdle sessionId read
  chunks : state.forwarded.flatten = chunksOf start (ownEvents sessionId read)

structure Running (sessionId : String) (start : EventMapperContext) (state : WaitState) :
    Prop where
  within : state.channel.next ≤ state.channel.sent.length
  forwarded : Forwarded sessionId start state state.channel.passed
  context : state.context = contextAfter start (ownEvents sessionId state.channel.passed)

def Tracked (sessionId : String) (start : EventMapperContext) (state : WaitState) : Prop :=
  match state.mode with
  | .returned (.ok (some data)) =>
      ∃ read idle, Forwarded sessionId start state read ∧
        sessionEvent? sessionId idle = some (idleType, data) ∧
        read ++ [idle] <+: state.channel.sent
  | .returned (.ok none) =>
      (∃ read, Forwarded sessionId start state read) ∧ state.cancelled = true
  | .returned (.error _) => ∃ read, Forwarded sessionId start state read
  | _ => Running sessionId start state

variable {sessionId : String} {start : EventMapperContext} {state : WaitState}

theorem Forwarded.inOrder (forwarded : Forwarded sessionId start state read) :
    state.forwarded.flatten <+:
      chunksOf start (beforeIdle (ownEvents sessionId state.channel.sent)) := by
  obtain ⟨later, arrived⟩ := forwarded.arrived
  rw [← arrived, ownEvents_append, beforeIdle_append forwarded.noIdle, chunksOf_append,
    forwarded.chunks]
  exact List.prefix_append _ _

theorem Tracked.forwarded (tracked : Tracked sessionId start state) :
    ∃ read, Forwarded sessionId start state read := by
  unfold Tracked at tracked
  split at tracked
  · obtain ⟨read, idle, forwarded, -⟩ := tracked
    exact ⟨read, forwarded⟩
  · exact tracked.1
  · exact tracked
  · exact ⟨_, tracked.forwarded⟩

theorem delivers_of_tracked (tracked : Tracked sessionId start state) :
    Delivers sessionId start state := by
  obtain ⟨read, forwarded⟩ := tracked.forwarded
  constructor
  · exact forwarded.inOrder
  · intro data returned
    simp only [Tracked, returned] at tracked
    obtain ⟨read, idle, forwarded, event, later, arrived⟩ := tracked
    have events : ownEvents sessionId state.channel.sent =
        ownEvents sessionId read ++ (idleType, data) :: ownEvents sessionId later := by
      rw [← arrived, List.append_assoc, ownEvents_append]
      simp [ownEvents, event]
    constructor
    · rw [events, idleData_append forwarded.noIdle]
      simp [idleData?]
    · rw [events, beforeIdle_append forwarded.noIdle, forwarded.chunks]
      simp [beforeIdle]
  · intro returned
    simp only [Tracked, returned] at tracked
    exact tracked.2

/-- What was read stays read while more arrives, and whatever else the state does. -/
theorem Forwarded.mono (forwarded : Forwarded sessionId start state read)
    (sent : state.channel.sent <+: next.channel.sent) (same : next.forwarded = state.forwarded) :
    Forwarded sessionId start next read :=
  ⟨forwarded.arrived.trans sent, forwarded.noIdle, by rw [same, forwarded.chunks]⟩

/-- A step of somebody else: more may arrive, or the query may be cancelled. -/
theorem Tracked.mono (tracked : Tracked sessionId start state) (mode : next.mode = state.mode)
    (sent : state.channel.sent <+: next.channel.sent) (same : next.forwarded = state.forwarded)
    (cancelled : state.cancelled = true → next.cancelled = true)
    (running : Running sessionId start state → Running sessionId start next) :
    Tracked sessionId start next := by
  unfold Tracked at tracked ⊢
  rw [mode]
  split at tracked
  · obtain ⟨read, idle, forwarded, event, arrived⟩ := tracked
    exact ⟨read, idle, forwarded.mono sent same, event, arrived.trans sent⟩
  · obtain ⟨⟨read, forwarded⟩, stopped⟩ := tracked
    exact ⟨⟨read, forwarded.mono sent same⟩, cancelled stopped⟩
  · obtain ⟨read, forwarded⟩ := tracked
    exact ⟨read, forwarded.mono sent same⟩
  · exact running tracked

theorem Running.send (running : Running sessionId start state) (notification : Value) :
    Running sessionId start { state with channel := state.channel.send notification } := by
  have passed := Broadcast.Channel.passed_send running.within notification
  have longer : state.channel.sent <+: (state.channel.send notification).sent :=
    List.prefix_append _ _
  constructor
  · exact running.within.trans longer.length_le
  · simp only [passed]
    exact running.forwarded.mono longer rfl
  · simp only [passed]
    exact running.context

theorem Running.setMode (running : Running sessionId start state) (mode : WaitMode) :
    Running sessionId start { state with mode } :=
  ⟨running.within, running.forwarded.mono (List.prefix_refl _) rfl, running.context⟩

theorem Forwarded.setMode (forwarded : Forwarded sessionId start state read) (mode : WaitMode) :
    Forwarded sessionId start { state with mode } read :=
  forwarded.mono (List.prefix_refl _) rfl

/-- The loop takes the next notification: it forwards the chunks of an event of its
session and goes on, or returns at the idle event. -/
theorem Running.takeNotification (running : Running sessionId start state)
    (received : state.channel.recv channelCapacity = (.value notification, channel)) :
    Tracked sessionId start
      (takeNotification sessionId { state with channel } notification) := by
  obtain ⟨inside, next, passed⟩ := Broadcast.Channel.recv_eq_value received
  have sent := Broadcast.Channel.sent_recv received
  have within : channel.next ≤ channel.sent.length := by
    rw [sent, next]
    omega
  have arrived : channel.passed <+: channel.sent := Broadcast.Channel.passed_prefix channel
  have events : ownEvents sessionId channel.passed =
      ownEvents sessionId state.channel.passed ++ (sessionEvent? sessionId notification).toList := by
    rw [passed, ownEvents_append]
    cases event : sessionEvent? sessionId notification with
    | none => simp [ownEvents, event]
    | some event => simp [ownEvents, event]
  unfold Copilot.takeNotification
  cases event : sessionEvent? sessionId notification with
  | none =>
      rw [event, Option.toList_none, List.append_nil] at events
      refine ⟨within, ⟨arrived, ?_, ?_⟩, ?_⟩
      · rw [NoIdle, events]
        exact running.forwarded.noIdle
      · rw [events]
        exact running.forwarded.chunks
      · rw [events]
        exact running.context
  | some event' =>
      obtain ⟨eventType, data⟩ := event'
      rw [event, Option.toList_some] at events
      simp only
      split
      · next isIdle =>
          subst isIdle
          refine ⟨state.channel.passed, notification, ?_, event, ?_⟩
          · exact running.forwarded.mono (by simp [sent]) rfl
          · rw [← passed]
            exact arrived
      · next notIdle =>
          refine ⟨within, ⟨arrived, ?_, ?_⟩, ?_⟩
          · intro other member
            rw [events] at member
            rcases List.mem_append.mp member with earlier | this
            · exact running.forwarded.noIdle other earlier
            · rw [List.mem_singleton.mp this]
              exact notIdle
          · rw [events, chunksOf_append, ← running.context, ← running.forwarded.chunks]
            split
            · next empty => simp [chunksOf, List.isEmpty_iff.mp empty]
            · simp [chunksOf]
          · rw [events, contextAfter_append, ← running.context]
            rfl

theorem tracked_waitStep (tracked : Tracked sessionId start state) (keepsUp : KeepsUp state event) :
    Tracked sessionId start (waitStep sessionId state event) := by
  cases event with
  | notify notification =>
      exact tracked.mono rfl (List.prefix_append _ _) rfl id fun running =>
        running.send notification
  | cancel =>
      simp only [waitStep]
      refine tracked.mono ?_ ?_ ?_ ?_ ?_
      · rfl
      · exact List.prefix_refl _
      · rfl
      · intro _
        rfl
      · intro running
        exact ⟨running.within, running.forwarded.mono (List.prefix_refl _) rfl, running.context⟩
  | sent result =>
      simp only [waitStep]
      split
      · next sending =>
          simp only [Tracked, sending] at tracked
          cases result with
          | ok => exact tracked.setMode .loopHead
          | error error => exact ⟨_, tracked.forwarded.setMode (.returned (.error error))⟩
      · exact tracked
  | turn expired =>
      simp only [waitStep]
      split
      · next atHead =>
          simp only [Tracked, atHead] at tracked
          split
          · next stopped =>
              exact ⟨⟨_, tracked.forwarded.setMode (.returned (.ok none))⟩, stopped⟩
          · split
            · exact ⟨_, tracked.forwarded.setMode (.returned (.error .timeout))⟩
            · exact tracked.setMode .receiving
      · exact tracked
  | receive =>
      simp only [waitStep]
      split
      · next receiving =>
          have running := tracked
          simp only [Tracked, receiving] at running
          split
          · exact tracked
          · next received =>
              have lags := Broadcast.Channel.recv_eq_lagged received
              have sent := Broadcast.Channel.sent_recv received
              refine ⟨⟨state.channel.passed, ?_⟩, keepsUp rfl receiving lags⟩
              exact running.forwarded.mono (by simp [sent]) rfl
          · next received => exact running.takeNotification received
      · exact tracked
  | timeout =>
      simp only [waitStep]
      split
      · next receiving _ =>
          simp only [Tracked, receiving] at tracked
          exact ⟨_, tracked.forwarded.setMode (.returned (.error .timeout))⟩
      · exact tracked

/-! ## Runs of the loop -/

theorem tracked_initial (sessionId : String) (start : EventMapperContext) :
    Tracked sessionId start { context := start } := by
  refine ⟨Nat.le_refl _, ⟨List.prefix_refl _, ?_, rfl⟩, rfl⟩
  intro event member
  cases member

theorem not_delivers_of_lag (behind : ¬ KeepsUp state event) :
    ¬ Delivers sessionId start (waitStep sessionId state event) := by
  intro delivers
  simp only [KeepsUp, Classical.not_imp] at behind
  obtain ⟨rfl, receiving, lags, running⟩ := behind
  have stopped : (waitStep sessionId state .receive).mode = .returned (.ok none) ∧
      (waitStep sessionId state .receive).cancelled = state.cancelled := by
    simp only [waitStep, receiving, Broadcast.Channel.recv, if_pos lags, and_self]
  exact running (stopped.2 ▸ delivers.interrupted stopped.1)

/-- Every state of a run delivers the events of the session exactly if the receiver
never falls behind by more than the capacity of the channel. -/
theorem delivers_iff_keepsUp (sessionId : String) (start : EventMapperContext)
    (events : List WaitEvent) :
    EventRun.Throughout (waitStep sessionId) (Delivers sessionId start) { context := start }
        events ↔
      EventRun.Along (waitStep sessionId) KeepsUp { context := start } events := by
  apply @EventRun.throughout_iff_along _ _ _ (Tracked sessionId start)
  · intro state tracked
    exact delivers_of_tracked tracked
  · intro state event tracked keepsUp
    exact tracked_waitStep tracked keepsUp
  · intro state event _ behind
    exact not_delivers_of_lag behind
  · exact tracked_initial sessionId start

def deltaNotification : Value :=
  .object [("method", .string "session.event"), ("params", .object [
    ("sessionId", .string "s"), ("event", .object [
      ("type", .string "assistant.message_delta"),
      ("data", .object [("deltaContent", .string "x")])])])]

/-- More deltas than the channel holds arrive before the loop starts. -/
def burst : List WaitEvent :=
  List.replicate 257 (.notify deltaNotification) ++ [.sent (.ok ()), .turn false, .receive]

/-- The loop returns as if nothing was wrong, and no delta was forwarded. -/
theorem burst_not_delivered : ¬ Delivers "s" {} (sendAndWait "s" {} burst) := by
  intro delivers
  have stopped : (sendAndWait "s" {} burst).mode = .returned (.ok none) := by decide +kernel
  have running : (sendAndWait "s" {} burst).cancelled = false := by decide +kernel
  have cancelled := delivers.interrupted stopped
  rw [running] at cancelled
  cases cancelled

end Copilot

end HarnessAgent
