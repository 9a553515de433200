import HarnessAgent.Foundation.EventRun
import HarnessAgent.Provider.OpenCodeProvider

/-! # The events of an OpenCode session

One server serves several sessions, and a session hears the events of all of them. It
takes up those that do not name another session, and shows each call of a tool once.
-/

namespace HarnessAgent

namespace OpenCode

open Provider EventRun

structure Heard where
  state : SessionState := {}
  chunks : List MessageChunk := []

def hear (sessionId : String) (heard : Heard) (event : SseEvent) : Heard :=
  if event.eventType = "message.updated" then
    { heard with state := processMessageUpdated event.properties sessionId heard.state }
  else if event.eventType = "message.part.updated" then
    let (more, next) := processMessagePartUpdated event.properties sessionId heard.state
    { state := next, chunks := heard.chunks ++ more }
  else heard

def endsSession (sessionId : String) (event : SseEvent) : Bool :=
  (event.eventType = "session.error" || event.eventType = "session.idle") &&
    !otherSession event.properties sessionId

def namedSession (event : SseEvent) : Option String :=
  if event.eventType = "message.updated" then
    (event.properties.getObject "info").bind fun info => info.getStr "sessionID"
  else if event.eventType = "message.part.updated" then
    (event.properties.getObject "part").bind fun part => part.getStr "sessionID"
  else event.properties.getStr "sessionID"

/-- What of the server's stream concerns a session: everything but the events that name
another session. -/
def concerns (sessionId : String) : Except String SseEvent → Bool
  | .error _ => true
  | .ok event => !(namedSession event).any (· ≠ sessionId)

def heardEvents (sessionId : String) (items : List (Except String SseEvent)) : List SseEvent :=
  (items.filterMap Except.toOption).takeWhile fun event => !endsSession sessionId event

def sessionEnd (render : Value → String) (attempt : Attempt) (sessionId : String)
    (heard : Heard) (event : SseEvent) : Except String (List MessageChunk) :=
  if event.eventType = "session.idle" then
    .ok (heard.chunks ++ [buildResultChunk sessionId heard.state.latestAssistantInfo
      (structuredOutput attempt heard.state)])
  else .error (sessionErrorText render event.properties)

variable {render : Value → String}

theorem eventLoop_cons (attempt : Attempt) (sessionId : String) (index : Nat)
    (heard : Heard) (event : SseEvent) (rest : List (Except String SseEvent)) :
    eventLoop render attempt sessionId index heard.state heard.chunks (.ok event :: rest) =
      if attempt.cancelledAt index then .error "aborted"
      else if endsSession sessionId event then sessionEnd render attempt sessionId heard event
      else eventLoop render attempt sessionId (index + 1) (hear sessionId heard event).state
        (hear sessionId heard event).chunks rest := by
  rw [eventLoop]
  split
  · rfl
  · dsimp only
    split
    · next same => simp [endsSession, hear, same]
    · next same => simp [endsSession, hear, same]
    · next same =>
        cases other : otherSession event.properties sessionId <;>
          simp [endsSession, sessionEnd, hear, same, other]
    · next same =>
        cases other : otherSession event.properties sessionId <;>
          simp [endsSession, sessionEnd, hear, same, other]
    · next notUpdated notPart notError notIdle =>
        have updated : event.eventType ≠ "message.updated" := notUpdated
        have part : event.eventType ≠ "message.part.updated" := notPart
        have error : event.eventType ≠ "session.error" := notError
        have idle : event.eventType ≠ "session.idle" := notIdle
        simp [endsSession, hear, updated, part, error, idle]

theorem heardEvents_cons (sessionId : String) (event : SseEvent)
    (rest : List (Except String SseEvent)) :
    heardEvents sessionId (.ok event :: rest) =
      if endsSession sessionId event then [] else event :: heardEvents sessionId rest := by
  change List.takeWhile _ (event :: rest.filterMap Except.toOption) = _
  rw [List.takeWhile_cons]
  cases endsSession sessionId event with
  | true => rfl
  | false => rfl

theorem eventLoop_ok {attempt : Attempt} {sessionId : String} {index : Nat} {heard : Heard}
    {items : List (Except String SseEvent)} {result : List MessageChunk}
    (ended : eventLoop render attempt sessionId index heard.state heard.chunks items = .ok result) :
    ∃ fields, result =
      (run (hear sessionId) heard (heardEvents sessionId items)).chunks ++ [.result fields] := by
  induction items generalizing index heard with
  | nil =>
      rw [eventLoop] at ended
      split at ended
      · cases ended
      · cases ended
  | cons item rest induction =>
      cases item with
      | error message =>
          rw [eventLoop] at ended
          split at ended
          · cases ended
          · cases ended
      | ok event =>
          rw [eventLoop_cons] at ended
          rw [heardEvents_cons]
          split at ended
          · cases ended
          · split at ended
            next ends =>
              rw [if_pos ends]
              rw [sessionEnd] at ended
              split at ended
              · cases ended
                exact ⟨_, rfl⟩
              · cases ended
            next goesOn =>
              rw [if_neg goesOn]
              exact induction ended

variable {sessionId : String} {attempt : Attempt}

theorem streamOpencodeSession_ok
    (ended : streamOpencodeSession render attempt sessionId = .ok result) :
    ∃ fields, result =
      (run (hear sessionId) {} (heardEvents sessionId attempt.events)).chunks ++
        [.result fields] := by
  rw [streamOpencodeSession] at ended
  split at ended
  · cases ended
  · cases ended
  · exact @eventLoop_ok _ _ _ 0 {} _ _ ended

/-! ## Other sessions -/

theorem ignores_other (other : concerns sessionId (.ok event) = false) (heard : Heard) :
    endsSession sessionId event = false ∧ hear sessionId heard event = heard := by
  rw [concerns, Bool.not_eq_false', namedSession] at other
  by_cases updated : event.eventType = "message.updated"
  · rw [if_pos updated] at other
    refine ⟨by simp [endsSession, updated], ?_⟩
    rw [hear, if_pos updated, processMessageUpdated]
    cases info : event.properties.getObject "info" with
    | none => rfl
    | some members =>
        rw [info, Option.bind_some] at other
        cases named : members.getStr "sessionID" with
        | none =>
            rw [named] at other
            cases other
        | some id =>
            rw [named, Option.any_some, decide_eq_true_eq] at other
            simp [other, named]
  · rw [if_neg updated] at other
    by_cases part : event.eventType = "message.part.updated"
    · rw [if_pos part] at other
      refine ⟨by simp [endsSession, part], ?_⟩
      rw [hear, if_neg updated, if_pos part, processMessagePartUpdated]
      cases found : event.properties.getObject "part" with
      | none => simp
      | some members =>
          rw [found, Option.bind_some] at other
          cases named : members.getStr "sessionID" with
          | none =>
              rw [named] at other
              cases other
          | some id =>
              rw [named, Option.any_some, decide_eq_true_eq] at other
              simp [other, named]
    · rw [if_neg part] at other
      refine ⟨?_, by rw [hear, if_neg updated, if_neg part]⟩
      rw [endsSession, otherSession, other, Bool.not_true, Bool.and_false]

theorem sessionEnd_congr (same : attempt.getMessage = other.getMessage) (sessionId : String)
    (heard : Heard) (event : SseEvent) :
    sessionEnd render attempt sessionId heard event =
      sessionEnd render other sessionId heard event := by
  rw [sessionEnd, sessionEnd, structuredOutput, structuredOutput, same]

theorem eventLoop_filter {attempt other : Attempt} (goesOn : attempt.cancelledAt = fun _ => false)
    (otherGoesOn : other.cancelledAt = fun _ => false)
    (same : attempt.getMessage = other.getMessage) (sessionId : String) (index otherIndex : Nat)
    (heard : Heard) (items : List (Except String SseEvent)) :
    eventLoop render attempt sessionId index heard.state heard.chunks items =
      eventLoop render other sessionId otherIndex heard.state heard.chunks
        (items.filter (concerns sessionId)) := by
  have never : ∀ index, attempt.cancelledAt index = false := fun index => by rw [goesOn]
  have otherNever : ∀ index, other.cancelledAt index = false := fun index => by rw [otherGoesOn]
  induction items generalizing index otherIndex heard with
  | nil => rw [List.filter_nil, eventLoop, eventLoop, never, otherNever]
  | cons item rest induction =>
      cases item with
      | error message =>
          rw [List.filter_cons_of_pos rfl, eventLoop, eventLoop, never, otherNever]
      | ok event =>
          cases ours : concerns sessionId (.ok event) with
          | false =>
              rcases ignores_other ours heard with ⟨noEnd, unchanged⟩
              rw [List.filter_cons_of_neg (by simp [ours]), eventLoop_cons, never, noEnd, unchanged,
                if_neg Bool.false_ne_true, if_neg Bool.false_ne_true]
              exact induction (index + 1) otherIndex heard
          | true =>
              rw [List.filter_cons_of_pos ours, eventLoop_cons, eventLoop_cons, never, otherNever,
                sessionEnd_congr same]
              rw [induction (index + 1) (otherIndex + 1) (hear sessionId heard event)]

structure SameForSession (sessionId : String) (attempt other : Attempt) : Prop where
  subscribed : attempt.subscribed = other.subscribed
  prompted : attempt.prompted = other.prompted
  getMessage : attempt.getMessage = other.getMessage
  cancelledAt : attempt.cancelledAt = fun _ => false
  otherCancelledAt : other.cancelledAt = fun _ => false
  events : attempt.events.filter (concerns sessionId) = other.events.filter (concerns sessionId)

theorem streamOpencodeSession_same (same : SameForSession sessionId attempt other) :
    streamOpencodeSession render attempt sessionId =
      streamOpencodeSession render other sessionId := by
  rw [streamOpencodeSession, streamOpencodeSession, ← same.subscribed, ← same.prompted]
  split
  · rfl
  · rfl
  · have first := @eventLoop_filter render _ _ same.cancelledAt same.otherCancelledAt
      same.getMessage sessionId 0 0 {} attempt.events
    have second := @eventLoop_filter render _ _ same.otherCancelledAt same.otherCancelledAt rfl
      sessionId 0 0 {} other.events
    rw [same.events, ← second] at first
    exact first

/-! ## Calls of tools -/

def calledPart (sessionId : String) (part : Members) : Option (String × Bool) :=
  if (part.getStr "sessionID").getD "" = sessionId ∧ part.getStr "type" = some "tool" then
    (part.getStr "callID").map fun callId =>
      (callId, (part.getObject "state").bind (fun toolState => toolState.getStr "status") ∈
        [some "completed", some "error"])
  else none

def toolUpdate (sessionId : String) (event : SseEvent) : Option (String × Bool) :=
  if event.eventType = "message.part.updated" then
    (event.properties.getObject "part").bind (calledPart sessionId)
  else none

def isCall (callId : String) : MessageChunk → Bool
  | .tool _ _ id => id = some callId
  | .toolResult _ _ id => id = some callId
  | _ => false

inductive CallShown (callId : String) (updated finished : Prop) : List MessageChunk → Prop
  | nothing : ¬updated → ¬finished → CallShown callId updated finished []
  | running (toolName : String) (toolInput : Option Value) : updated → ¬finished →
      CallShown callId updated finished [.tool toolName toolInput (some callId)]
  | done (toolName resultName : String) (toolInput : Option Value) (output : String) :
      updated → finished → CallShown callId updated finished
        [.tool toolName toolInput (some callId), .toolResult resultName output (some callId)]

structure CallKept (callId : String) (updated finished : Prop) (heard : Heard) : Prop where
  seen : callId ∈ heard.state.seenToolCalls ↔ updated
  completed : callId ∈ heard.state.completedToolCalls ↔ finished
  shown : CallShown callId updated finished (heard.chunks.filter (isCall callId))

variable {callId : String} {finished updated : Prop} {heard : Heard}

theorem CallKept.congr {updatedAfter finishedAfter : Prop}
    (kept : CallKept callId updated finished heard) (sameUpdated : updatedAfter ↔ updated)
    (sameFinished : finishedAfter ↔ finished) :
    CallKept callId updatedAfter finishedAfter heard := by
  rw [propext sameUpdated, propext sameFinished]
  exact kept

theorem CallKept.unchanged (kept : CallKept callId updated finished heard)
    (seen : callId ∈ next.seenToolCalls ↔ callId ∈ heard.state.seenToolCalls)
    (completed : callId ∈ next.completedToolCalls ↔ callId ∈ heard.state.completedToolCalls)
    (absent : ∀ chunk ∈ more, isCall callId chunk = false) :
    CallKept callId updated finished { state := next, chunks := heard.chunks ++ more } where
  seen := seen.trans kept.seen
  completed := completed.trans kept.completed
  shown := by
    have nothing : more.filter (isCall callId) = [] :=
      List.filter_eq_nil_iff.mpr fun chunk member => by rw [absent chunk member]; exact nofun
    rw [List.filter_append, nothing, List.append_nil]
    exact kept.shown

theorem isSome_toolOutput (toolState : Option Members) :
    (toolOutput toolState).isSome = true ↔
      toolState.bind (fun members => members.getStr "status") ∈
        [some "completed", some "error"] := by
  rw [toolOutput, List.mem_pair]
  split
  · next same => simp [same]
  · next same => simp [same]
  · next notCompleted notError =>
      have completed : ¬ (toolState.bind fun members => members.getStr "status") =
          some "completed" := notCompleted
      have error : ¬ (toolState.bind fun members => members.getStr "status") =
          some "error" := notError
      simp [completed, error]

variable {part : Members}

/-- What an update of a call adds: the call if it is new, and the result if it is over
and new. -/
theorem processToolPart_called (called : part.getStr "callID" = some callId)
    (state : SessionState) :
    ∃ toolName toolInput output,
      processToolPart part state =
        ((if callId ∈ state.seenToolCalls then []
          else [.tool toolName toolInput (some callId)]) ++
          (if callId ∈ state.completedToolCalls ∨
              (toolOutput (part.getObject "state")).isSome = false then []
            else [.toolResult toolName output (some callId)]),
        { state with
          seenToolCalls :=
            if callId ∈ state.seenToolCalls then state.seenToolCalls
            else callId :: state.seenToolCalls
          completedToolCalls :=
            if callId ∈ state.completedToolCalls ∨
                (toolOutput (part.getObject "state")).isSome = false then
              state.completedToolCalls
            else callId :: state.completedToolCalls }) := by
  refine ⟨(part.getStr "tool").getD "unknown", toolInput (part.getObject "state"),
    (toolOutput (part.getObject "state")).getD "", ?_⟩
  rw [processToolPart, called]
  by_cases seen : callId ∈ state.seenToolCalls <;>
    by_cases completed : callId ∈ state.completedToolCalls <;>
      cases output : toolOutput (part.getObject "state") <;>
        simp [seen, completed, output]

theorem CallKept.otherCall (kept : CallKept callId updated finished heard)
    (called : part.getStr "callID" = some other) (different : other ≠ callId) :
    CallKept callId updated finished
      { state := (processToolPart part heard.state).2
        chunks := heard.chunks ++ (processToolPart part heard.state).1 } := by
  rcases processToolPart_called called heard.state with ⟨toolName, toolInput, output, same⟩
  rw [same]
  apply kept.unchanged
  · dsimp only
    split
    · rfl
    · simp [different.symm]
  · dsimp only
    split
    · rfl
    · simp [different.symm]
  · intro chunk member
    have calls : chunk = .tool toolName toolInput (some other) ∨
        chunk = .toolResult toolName output (some other) := by
      rcases List.mem_append.mp member with first | later
      · split at first
        · cases first
        · exact .inl (List.mem_singleton.mp first)
      · split at later
        · cases later
        · exact .inr (List.mem_singleton.mp later)
    rcases calls with rfl | rfl
    · exact decide_eq_false fun same => different (Option.some.inj same)
    · exact decide_eq_false fun same => different (Option.some.inj same)

theorem CallKept.ownCall (kept : CallKept callId updated finished heard)
    (called : part.getStr "callID" = some callId) :
    CallKept callId True (finished ∨ (toolOutput (part.getObject "state")).isSome = true)
      { state := (processToolPart part heard.state).2
        chunks := heard.chunks ++ (processToolPart part heard.state).1 } := by
  rcases processToolPart_called called heard.state with ⟨toolName, toolInput, output, same⟩
  have isTool : isCall callId (.tool toolName toolInput (some callId)) = true :=
    decide_eq_true rfl
  have isResult : isCall callId (.toolResult toolName output (some callId)) = true :=
    decide_eq_true rfl
  rw [same]
  rcases kept with ⟨seen, completed, shown⟩
  constructor
  · dsimp only
    split
    · next already => simp [already]
    · next new => simp
  · dsimp only
    cases isOver : (toolOutput (part.getObject "state")).isSome with
    | false => simp [completed]
    | true =>
        split
        · next already =>
            have before : callId ∈ heard.state.completedToolCalls := by simpa using already
            simp [before]
        · simp
  · dsimp only
    rw [List.filter_append, List.filter_append]
    generalize heard.chunks.filter (isCall callId) = before at shown ⊢
    cases isOver : (toolOutput (part.getObject "state")).isSome with
    | false =>
        have goesOn : callId ∈ heard.state.completedToolCalls ∨ false = false := .inr rfl
        rw [if_pos goesOn, List.filter_nil, List.append_nil]
        cases shown with
        | nothing new isOpen =>
            rw [if_neg (mt seen.mp new), List.filter_cons_of_pos isTool]
            exact .running toolName toolInput trivial (by simp [isOpen])
        | running name input updated isOpen =>
            rw [if_pos (seen.mpr updated)]
            exact .running name input trivial (by simp [isOpen])
        | done name resultName input text updated finished =>
            rw [if_pos (seen.mpr updated)]
            exact .done name resultName input text trivial (.inl finished)
    | true =>
        cases shown with
        | nothing new isOpen =>
            rw [if_neg (mt seen.mp new), if_neg (by simp [mt completed.mp isOpen]),
              List.filter_cons_of_pos isTool, List.filter_cons_of_pos isResult]
            exact .done toolName toolName toolInput output trivial (.inr rfl)
        | running name input updated isOpen =>
            rw [if_pos (seen.mpr updated), if_neg (by simp [mt completed.mp isOpen]),
              List.filter_cons_of_pos isResult]
            exact .done name toolName input output trivial (.inr rfl)
        | done name resultName input text updated finished =>
            rw [if_pos (seen.mpr updated), if_pos (.inl (completed.mpr finished))]
            exact .done name resultName input text trivial (.inr rfl)

theorem processMessageUpdated_calls (properties : Members) (sessionId : String)
    (state : SessionState) :
    (processMessageUpdated properties sessionId state).seenToolCalls = state.seenToolCalls ∧
      (processMessageUpdated properties sessionId state).completedToolCalls =
        state.completedToolCalls := by
  rw [processMessageUpdated]
  split
  · exact ⟨rfl, rfl⟩
  · split
    · exact ⟨rfl, rfl⟩
    · exact ⟨rfl, rfl⟩

theorem CallKept.partUpdated (kept : CallKept callId updated finished heard)
    (typed : event.eventType = "message.part.updated") :
    CallKept callId (updated ∨ ∃ isOver, toolUpdate sessionId event = some (callId, isOver))
      (finished ∨ toolUpdate sessionId event = some (callId, true))
      { state := (processMessagePartUpdated event.properties sessionId heard.state).2
        chunks := heard.chunks ++
          (processMessagePartUpdated event.properties sessionId heard.state).1 } := by
  have silent : toolUpdate sessionId event = none → ∀ more : List MessageChunk,
      (∀ chunk ∈ more, isCall callId chunk = false) →
      CallKept callId (updated ∨ ∃ isOver, toolUpdate sessionId event = some (callId, isOver))
        (finished ∨ toolUpdate sessionId event = some (callId, true))
        { state := heard.state, chunks := heard.chunks ++ more } := by
    intro absent more others
    rw [absent]
    exact (kept.unchanged Iff.rfl Iff.rfl others).congr (by simp) (by simp)
  rw [processMessagePartUpdated]
  cases found : event.properties.getObject "part" with
  | none => exact silent (by rw [toolUpdate, if_pos typed, found]; rfl) [] (List.forall_mem_nil _)
  | some part =>
      have read : toolUpdate sessionId event = calledPart sessionId part := by
        rw [toolUpdate, if_pos typed, found, Option.bind_some]
      rw [calledPart] at read
      dsimp only
      split
      next other =>
        exact silent (by rw [read, if_neg (fun both => other both.1)]) [] (List.forall_mem_nil _)
      next ours =>
        split
        next text =>
          refine silent (by rw [read, if_neg (by simp [text])]) _ ?_
          split
          · exact List.forall_mem_nil _
          · exact List.forall_mem_singleton.mpr rfl
        next reasoning =>
          refine silent (by rw [read, if_neg (by simp [reasoning])]) _ ?_
          split
          · exact List.forall_mem_nil _
          · exact List.forall_mem_singleton.mpr rfl
        next tool =>
          rw [if_pos ⟨not_not.mp ours, tool⟩] at read
          cases called : part.getStr "callID" with
          | none =>
              rw [called] at read
              rw [processToolPart, called]
              exact silent read [] (List.forall_mem_nil _)
          | some other =>
              rw [called, Option.map_some] at read
              by_cases same : other = callId
              · subst same
                apply (kept.ownCall called).congr
                · simp [read]
                · rw [read, isSome_toolOutput]
                  simp
              · apply (kept.otherCall called same).congr
                · simp [read, same]
                · simp [read, same]
        next notText notReasoning notTool =>
          have noTool : ¬part.getStr "type" = some "tool" := notTool
          exact silent (by rw [read, if_neg (fun both => noTool both.2)]) []
            (List.forall_mem_nil _)

theorem CallKept.hear {updated finished : Prop} (kept : CallKept callId updated finished heard)
    (sessionId : String) (event : SseEvent) :
    CallKept callId (updated ∨ ∃ isOver, toolUpdate sessionId event = some (callId, isOver))
      (finished ∨ toolUpdate sessionId event = some (callId, true))
      (hear sessionId heard event) := by
  by_cases part : event.eventType = "message.part.updated"
  · have same : OpenCode.hear sessionId heard event =
        { state := (processMessagePartUpdated event.properties sessionId heard.state).2
          chunks := heard.chunks ++
            (processMessagePartUpdated event.properties sessionId heard.state).1 } := by
      rw [OpenCode.hear, if_neg (by simp [part]), if_pos part]
    rw [same]
    exact kept.partUpdated part
  · have absent : toolUpdate sessionId event = none := by
      rw [toolUpdate, if_neg part]
    have unchanged : CallKept callId updated finished (OpenCode.hear sessionId heard event) := by
      rw [OpenCode.hear]
      split
      · rcases processMessageUpdated_calls event.properties sessionId heard.state with
          ⟨seen, completed⟩
        refine ⟨?_, ?_, kept.shown⟩
        · rw [seen]
          exact kept.seen
        · rw [completed]
          exact kept.completed
      · exact kept
    exact unchanged.congr (by simp [absent]) (by simp [absent])

/-- A session shows each call that it hears of once, and its result once it hears that
the call is over. -/
theorem run_hear_call (sessionId callId : String) (events : List SseEvent) :
    CallKept callId (∃ event ∈ events, ∃ isOver, toolUpdate sessionId event = some (callId, isOver))
      (∃ event ∈ events, toolUpdate sessionId event = some (callId, true))
      (run (hear sessionId) {} events) := by
  induction events using List.reverseRecOn with
  | nil =>
      refine ⟨by simp [run], by simp [run], ?_⟩
      exact .nothing (by simp) (by simp)
  | append_singleton events event induction =>
      rw [run, List.foldl_append]
      exact (induction.hear sessionId event).congr (by simp [or_and_right, exists_or])
        (by simp [or_and_right, exists_or])

/-! ## What a session emits -/

/-- The chunks that reach the consumer: none of a session that does not end well. -/
def emitted (render : Value → String) (attempt : Attempt) (sessionId : String) :
    List MessageChunk :=
  (streamOpencodeSession render attempt sessionId).toOption.getD []

def CallUpdated (sessionId callId : String) (attempt : Attempt) : Prop :=
  ∃ event ∈ heardEvents sessionId attempt.events, ∃ isOver,
    toolUpdate sessionId event = some (callId, isOver)

def CallOver (sessionId callId : String) (attempt : Attempt) : Prop :=
  ∃ event ∈ heardEvents sessionId attempt.events,
    toolUpdate sessionId event = some (callId, true)

/-- What a session emits depends on the events that name no other session. If it ends
well, each of its calls is shown once, and its result once it is over; if not, nothing
is. -/
theorem emitted_calls (render : Value → String) (sessionId : String) :
    (∀ attempt other, SameForSession sessionId attempt other →
      emitted render attempt sessionId = emitted render other sessionId) ∧
    (∀ attempt, (streamOpencodeSession render attempt sessionId).toOption.isSome = true →
      ∀ callId, CallShown callId (CallUpdated sessionId callId attempt)
        (CallOver sessionId callId attempt)
        ((emitted render attempt sessionId).filter (isCall callId))) ∧
    (∀ attempt, (streamOpencodeSession render attempt sessionId).toOption.isSome = false →
      emitted render attempt sessionId = []) := by
  refine ⟨?_, ?_, ?_⟩
  · intro attempt other same
    rw [emitted, emitted, streamOpencodeSession_same same]
  · intro attempt ended callId
    cases stream : streamOpencodeSession render attempt sessionId with
    | error message =>
        rw [stream] at ended
        cases ended
    | ok chunks =>
        rcases streamOpencodeSession_ok stream with ⟨fields, rfl⟩
        have shown := (run_hear_call sessionId callId
          (heardEvents sessionId attempt.events)).shown
        rw [emitted, stream]
        change CallShown callId _ _ ((_ ++ [MessageChunk.result fields]).filter (isCall callId))
        rw [List.filter_append, List.filter_cons_of_neg Bool.false_ne_true, List.filter_nil,
          List.append_nil]
        exact shown
  · intro attempt failed
    cases stream : streamOpencodeSession render attempt sessionId with
    | error message =>
        rw [emitted, stream]
        rfl
    | ok chunks =>
        rw [stream] at failed
        cases failed

def callEvent (sessionId callId status : String) : SseEvent where
  eventType := "message.part.updated"
  properties := [("part", .object [("sessionID", .string sessionId), ("type", .string "tool"),
    ("callID", .string callId), ("tool", .string "bash"),
    ("state", .object [("status", .string status), ("output", .string "done")])])]

def endEvent (eventType sessionId : String) : SseEvent where
  eventType := eventType
  properties := [("sessionID", .string sessionId)]

def createdSession : Value :=
  .object [("id", .string "s1")]

/-- Another session is served while this one calls a tool. -/
def sharedAttempt : Attempt where
  createSession := .ok createdSession
  events := [.ok (callEvent "s1" "c1" "running"), .ok (callEvent "s2" "c1" "error"),
    .ok (endEvent "session.idle" "s2"), .ok (callEvent "s1" "c1" "completed"),
    .ok (callEvent "s1" "c1" "completed"), .ok (endEvent "session.idle" "s1")]

def aloneAttempt : Attempt where
  createSession := .ok createdSession
  events := [.ok (callEvent "s1" "c1" "running"), .ok (callEvent "s1" "c1" "completed"),
    .ok (callEvent "s1" "c1" "completed"), .ok (endEvent "session.idle" "s1")]

theorem emitted_sharedAttempt :
    emitted (fun _ => "") sharedAttempt "s1" = emitted (fun _ => "") aloneAttempt "s1" ∧
      CallShown "c1" (CallUpdated "s1" "c1" sharedAttempt) (CallOver "s1" "c1" sharedAttempt)
        ((emitted (fun _ => "") sharedAttempt "s1").filter (isCall "c1")) := by
  have same : SameForSession "s1" sharedAttempt aloneAttempt :=
    ⟨rfl, rfl, rfl, rfl, rfl, rfl⟩
  exact ⟨(emitted_calls (fun _ => "") "s1").1 sharedAttempt aloneAttempt same,
    (emitted_calls (fun _ => "") "s1").2.1 sharedAttempt (by decide +kernel) "c1"⟩

def failedAttempt : Attempt where
  createSession := .ok createdSession
  events := [.ok (callEvent "s1" "c1" "completed"), .ok (endEvent "session.error" "s1")]

theorem emitted_failedAttempt :
    CallUpdated "s1" "c1" failedAttempt ∧
      (emitted (fun _ => "") failedAttempt "s1").filter (isCall "c1") = [] ∧
      ¬CallShown "c1" (CallUpdated "s1" "c1" failedAttempt) (CallOver "s1" "c1" failedAttempt)
        ((emitted (fun _ => "") failedAttempt "s1").filter (isCall "c1")) := by
  have heard : heardEvents "s1" failedAttempt.events = [callEvent "s1" "c1" "completed"] := by
    rfl
  have updated : CallUpdated "s1" "c1" failedAttempt := by
    rw [CallUpdated, heard]
    exact ⟨_, List.mem_singleton_self _, true, by decide +kernel⟩
  have nothing : (emitted (fun _ => "") failedAttempt "s1").filter (isCall "c1") = [] := by
    decide +kernel
  refine ⟨updated, nothing, ?_⟩
  rw [nothing]
  intro shown
  cases shown with
  | nothing new _ => exact new updated

end OpenCode

end HarnessAgent
