import HarnessAgent.Foundation.Json
import Mathlib.Data.List.AList
import Mathlib.Logic.Function.Basic

/-! # Dispatch of JSON-RPC messages

The reader side of the Copilot client: a decoded message answers one of the
client's own requests, is a notification, or is a request of the server that has to
be answered.
-/

namespace HarnessAgent

namespace Copilot

/-- Errors of the client; a message that cannot be encoded or written fails to be
sent. -/
inductive RpcError
  | send
  | remoteError (message : String)
  | channelClosed
  | timeout
  deriving DecidableEq

/-- What the receiver of a request gets: an answer, or word that its sender is
gone. -/
inductive Outcome
  | answered (answer : Except String Value)
  | closed

/-- The senders of the requests that wait for an answer, under their ids. -/
abbrev InFlight (Call : Type) := AList fun _ : Nat => Call

structure RpcState (Call : Type) where
  inFlight : InFlight Call := ∅
  outcomes : Call → Option Outcome := fun _ => none
  /-- The answers handed to the writer. -/
  written : List Value := []
  notifications : List Value := []

/-! ## The functions of the client -/

def hasId (message : Value) : Bool :=
  ((message.get "id").map fun id => !id.isNull).getD false

def hasMethod (message : Value) : Bool :=
  (message.get "method").isSome

def hasResult (message : Value) : Bool :=
  (message.get "result").isSome

def hasError (message : Value) : Bool :=
  (message.get "error").isSome

def handleServerRequest (method : String) (params : Value) : Value :=
  if method = "tool.call" then
    let toolName := ((params.get "toolName").bind Value.asStr).getD "unknown"
    .object [("result", .object [
      ("textResultForLlm",
        .string ("Tool '" ++ toolName ++ "' is not supported by this client instance.")),
      ("resultType", .string "failure"),
      ("error", .string ("tool '" ++ toolName ++ "' not supported")),
      ("toolTelemetry", .object [])])]
  else if method = "permission.request" then
    .object [("result", .object [("kind", .string "approved")])]
  else
    .object [("code", .number (.negInt 32601)),
      ("message", .string ("Method not found: " ++ method))]

def serverResponse (message : Value) : Value :=
  let method := (message.index "method").asStr.getD ""
  let params := (message.get "params").getD .null
  .object [("jsonrpc", .string "2.0"), ("id", message.index "id"),
    ("result", handleServerRequest method params)]

variable {Call : Type} [DecidableEq Call]

/-- Takes the sender of an id out of the table and sends it an outcome. -/
def RpcState.resolve (state : RpcState Call) (id : Nat) (outcome : Outcome) : RpcState Call :=
  match state.inFlight.lookup id with
  | none => state
  | some call =>
      { state with
        inFlight := state.inFlight.erase id
        outcomes := Function.update state.outcomes call (some outcome) }

variable (render : Value → String)

def responseAnswer (message : Value) : Except String Value :=
  if hasError message then .error (render (message.index "error"))
  else .ok (message.index "result")

def dispatchMessage (state : RpcState Call) (message : Value) : RpcState Call :=
  if hasMethod message && hasId message then
    { state with written := state.written ++ [serverResponse message] }
  else if hasMethod message && !hasId message then
    { state with notifications := state.notifications ++ [message] }
  else if hasId message && (hasResult message || hasError message) then
    match (message.index "id").asU64 with
    | none => state
    | some id => state.resolve id (.answered (responseAnswer render message))
  else state

def dispatchAll (state : RpcState Call) (messages : List Value) : RpcState Call :=
  messages.foldl (dispatchMessage render) state

/-! ## What dispatching is for -/

def IsResponse (message : Value) : Prop :=
  hasMethod message = false ∧ hasId message = true ∧
    (hasResult message || hasError message) = true

def IsServerRequest (message : Value) : Prop :=
  hasMethod message = true ∧ hasId message = true

def handledMethods : List String := ["tool.call", "permission.request"]

def IsHandled (message : Value) : Prop :=
  ∃ method ∈ handledMethods, message.get "method" = some (.string method)

/-- A response of JSON-RPC 2.0 to a request: a result for a method the client knows,
and the error for an unknown method otherwise, never both. -/
structure Conforms (request answer : Value) : Prop where
  version : answer.get "jsonrpc" = some (.string "2.0")
  sameId : answer.get "id" = request.get "id"
  handled : IsHandled request → (answer.get "result").isSome ∧ answer.get "error" = none
  unknown : ¬ IsHandled request → answer.get "result" = none ∧
    ∃ error, answer.get "error" = some error ∧ error.get "code" = some (.number (.negInt 32601))

structure Carries (render : Value → String) (response : Value) (answer : Except String Value) :
    Prop where
  error : ∀ error, response.get "error" = some error → error ≠ .null →
    answer = .error (render error)
  result : ∀ result, response.get "result" = some result →
    (∀ error, response.get "error" = some error → error = .null) → answer = .ok result

structure ResolvesOwn (id : Nat) (answer : Except String Value)
    (before after : RpcState Call) : Prop where
  own : ∀ call, before.inFlight.lookup id = some call →
    after.outcomes call = some (.answered answer)
  others : ∀ call, before.inFlight.lookup id ≠ some call →
    after.outcomes call = before.outcomes call
  taken : after.inFlight.lookup id = none
  kept : ∀ other, other ≠ id → after.inFlight.lookup other = before.inFlight.lookup other
  written : after.written = before.written
  notifications : after.notifications = before.notifications

structure DispatchesCorrectly (state : RpcState Call) (messages : List Value) : Prop where
  response : ∀ earlier message later, messages = earlier ++ message :: later →
    IsResponse message → ∀ id, message.get "id" = some (.number (.posInt id)) →
    ∃ answer, Carries render message answer ∧
      ResolvesOwn id answer (dispatchAll render state earlier)
        (dispatchAll render state (earlier ++ [message]))
  /-- No request of the client has an id of another kind. -/
  foreign : ∀ earlier message later, messages = earlier ++ message :: later →
    IsResponse message → (∀ id, message.get "id" ≠ some (.number (.posInt id))) →
    dispatchAll render state (earlier ++ [message]) = dispatchAll render state earlier
  repeated : ∀ earlier first between second later,
    messages = earlier ++ first :: between ++ second :: later →
    IsResponse first → IsResponse second → first.get "id" = second.get "id" →
    dispatchAll render state (earlier ++ first :: between ++ [second]) =
      dispatchAll render state (earlier ++ first :: between)
  request : ∀ earlier message later, messages = earlier ++ message :: later →
    IsServerRequest message → ∃ answer, Conforms message answer ∧
      dispatchAll render state (earlier ++ [message]) =
        { dispatchAll render state earlier with
          written := (dispatchAll render state earlier).written ++ [answer] }

/-- A request with the id waits for its answer, which is not among the earlier messages. -/
def Awaits (state : RpcState Call) (earlier : List Value) (id : Nat) : Prop :=
  (∃ call, state.inFlight.lookup id = some call) ∧
    ∀ message ∈ earlier, IsResponse message → message.get "id" ≠ some (.number (.posInt id))

def HasNullError (message : Value) : Prop :=
  message.get "error" = some .null ∧ ∃ result, message.get "result" = some result

/-! ## One message -/

variable {render}

variable {message : Value}

theorem dispatchMessage_of_request (request : IsServerRequest message) (state : RpcState Call) :
    dispatchMessage render state message =
      { state with written := state.written ++ [serverResponse message] } := by
  simp [dispatchMessage, request.1, request.2]

theorem dispatchMessage_of_response (response : IsResponse message) (state : RpcState Call) :
    dispatchMessage render state message =
      match (message.index "id").asU64 with
      | none => state
      | some id => state.resolve id (.answered (responseAnswer render message)) := by
  rcases response with ⟨unnamed, identified, answered⟩
  simp only [dispatchMessage, unnamed, identified, answered]
  rfl

variable {id : Nat}

theorem asU64_index :
    (message.index "id").asU64 = some id ↔ message.get "id" = some (.number (.posInt id)) := by
  have decoded : ∀ value : Value, value.asU64 = some id ↔ value = .number (.posInt id) := by
    intro value
    constructor
    · intro number
      unfold Value.asU64 at number
      split at number
      · cases number
        rfl
      · cases number
    · rintro rfl
      rfl
  cases found : message.get "id" with
  | none => simp [Value.index, found, decoded]
  | some value => simp [Value.index, found, decoded]

theorem lookup_resolve (state : RpcState Call) (id other : Nat) (outcome : Outcome) :
    (state.resolve id outcome).inFlight.lookup other =
      if other = id then none else state.inFlight.lookup other := by
  unfold RpcState.resolve
  split
  · next absent =>
      split
      · next same => rw [same, absent]
      · rfl
  · split
    · next same =>
        rw [same]
        exact AList.lookup_erase _ _
    · next different => exact AList.lookup_erase_ne different

theorem outcomes_resolve (state : RpcState Call) (id : Nat) (outcome : Outcome) (call : Call) :
    (state.resolve id outcome).outcomes call =
      if state.inFlight.lookup id = some call then some outcome else state.outcomes call := by
  unfold RpcState.resolve
  split
  · next absent => simp [absent]
  · next owner found =>
      by_cases same : call = owner
      · simp [found, same]
      · simp [found, same, Ne.symm same]

theorem resolvesOwn_resolve (state : RpcState Call) (id : Nat) (answer : Except String Value) :
    ResolvesOwn id answer state (state.resolve id (.answered answer)) := by
  constructor
  · intro call sender
    rw [outcomes_resolve, if_pos sender]
  · intro call other
    rw [outcomes_resolve, if_neg other]
  · rw [lookup_resolve, if_pos rfl]
  · intro other different
    rw [lookup_resolve, if_neg different]
  · unfold RpcState.resolve
    split <;> rfl
  · unfold RpcState.resolve
    split <;> rfl

theorem dispatchMessage_cases (state : RpcState Call) (message : Value) :
    ((dispatchMessage render state message).inFlight = state.inFlight ∧
      (dispatchMessage render state message).outcomes = state.outcomes) ∨
    ∃ id outcome, dispatchMessage render state message = state.resolve id outcome := by
  unfold dispatchMessage
  split
  · exact .inl ⟨rfl, rfl⟩
  · split
    · exact .inl ⟨rfl, rfl⟩
    · split
      · split
        · exact .inl ⟨rfl, rfl⟩
        · exact .inr ⟨_, _, rfl⟩
      · exact .inl ⟨rfl, rfl⟩

variable {state : RpcState Call}

/-- Dispatching takes senders out of the table and never puts one in. -/
theorem lookup_dispatchMessage (absent : state.inFlight.lookup id = none) (message : Value) :
    (dispatchMessage render state message).inFlight.lookup id = none := by
  rcases dispatchMessage_cases state message with ⟨same, -⟩ | ⟨own, outcome, resolved⟩
  · rw [same, absent]
  · rw [resolved, lookup_resolve, absent, ite_self]

theorem lookup_dispatchAll (absent : state.inFlight.lookup id = none) (messages : List Value) :
    (dispatchAll render state messages).inFlight.lookup id = none := by
  induction messages generalizing state with
  | nil => exact absent
  | cons message rest induction => exact induction (lookup_dispatchMessage absent message)

/-- A request is taken out of the table by the responses with its id, and by nothing else. -/
theorem lookup_dispatchMessage_of_other
    (other : IsResponse message → message.get "id" ≠ some (.number (.posInt id)))
    (state : RpcState Call) :
    (dispatchMessage render state message).inFlight.lookup id = state.inFlight.lookup id := by
  unfold dispatchMessage
  split
  · rfl
  · split
    · rfl
    · next named notified =>
        split
        · next answered =>
            split
            · rfl
            · next own decoded =>
                have identified := asU64_index.mp decoded
                have unnamed : hasMethod message = false := by
                  rw [Bool.and_eq_true] at answered
                  simpa [answered.1] using named
                rw [Bool.and_eq_true] at answered
                have different : id ≠ own := by
                  rintro rfl
                  exact other ⟨unnamed, answered.1, answered.2⟩ identified
                rw [lookup_resolve, if_neg different]
        · rfl

theorem lookup_dispatchAll_iff (messages : List Value) :
    (∃ call, (dispatchAll render state messages).inFlight.lookup id = some call) ↔
      Awaits state messages id := by
  induction messages generalizing state with
  | nil => exact ⟨fun waits => ⟨waits, List.forall_mem_nil _⟩, fun waits => waits.1⟩
  | cons message rest induction =>
      change (∃ call, (dispatchAll render (dispatchMessage render state message)
        rest).inFlight.lookup id = some call) ↔ _
      rw [induction, Awaits, Awaits, List.forall_mem_cons]
      by_cases answers : IsResponse message ∧ message.get "id" = some (.number (.posInt id))
      · have taken : (dispatchMessage render state message).inFlight.lookup id = none := by
          rw [dispatchMessage_of_response answers.1, asU64_index.mpr answers.2]
          exact (resolvesOwn_resolve state id _).taken
        rw [taken]
        refine iff_of_false ?_ fun waits => waits.2.1 answers.1 answers.2
        rintro ⟨⟨call, absent⟩, -⟩
        cases absent
      · have other : IsResponse message → message.get "id" ≠ some (.number (.posInt id)) :=
          fun response identified => answers ⟨response, identified⟩
        rw [lookup_dispatchMessage_of_other other]
        exact and_congr_right fun _ => ⟨fun rest => ⟨other, rest⟩, fun both => both.2⟩

/-! ## Answers -/

theorem carries_responseAnswer_iff (message : Value) :
    Carries render message (responseAnswer render message) ↔ ¬HasNullError message := by
  unfold responseAnswer hasError Value.index
  cases held : message.get "error" with
  | none =>
      refine iff_of_true ⟨fun error absent => ?_, fun result found _ => ?_⟩ fun null => ?_
      · rw [held] at absent
        cases absent
      · rw [found]
        rfl
      · rw [HasNullError, held] at null
        cases null.1
  | some error =>
      dsimp only [Option.isSome_some, Option.getD_some]
      rw [if_pos rfl]
      constructor
      · rintro carries ⟨null, result, found⟩
        rw [held] at null
        cases null
        have contrary := carries.result result found fun other same => by
          rw [held] at same
          cases same
          rfl
        cases contrary
      · intro sound
        constructor
        · intro other same _
          rw [held] at same
          cases same
          rfl
        · intro result found null
          refine absurd ⟨?_, result, found⟩ sound
          rw [held, null error held]

theorem exists_carries (message : Value) : ∃ answer, Carries render message answer := by
  by_cases null : HasNullError message
  · rcases null with ⟨none, result, found⟩
    refine ⟨.ok result, fun error held present => ?_, fun other same _ => ?_⟩
    · rw [none] at held
      cases held
      exact absurd rfl present
    · rw [found] at same
      cases same
      rfl
  · exact ⟨_, (carries_responseAnswer_iff message).mpr null⟩

theorem conforms_serverResponse_iff (request : IsServerRequest message) :
    Conforms message (serverResponse message) ↔ IsHandled message := by
  have result : (serverResponse message).get "result" ≠ none := by
    simp [serverResponse, Value.get, Value.asObject, List.lookup_cons]
  have error : (serverResponse message).get "error" = none := by
    simp [serverResponse, Value.get, Value.asObject, List.lookup_cons]
  have sameId : (serverResponse message).get "id" = message.get "id" := by
    cases found : message.get "id" with
    | none => simp [IsServerRequest, hasId, found] at request
    | some id =>
        have echoed : (serverResponse message).get "id" = some (message.index "id") := rfl
        rw [echoed, Value.index, found]
        rfl
  constructor
  · intro conforms
    by_contra unknown
    exact result (conforms.unknown unknown).1
  · intro handled
    exact ⟨rfl, sameId, fun _ => ⟨Option.isSome_iff_ne_none.mpr result, error⟩,
      fun unknown => absurd handled unknown⟩

/-! ## Sequences of messages -/

theorem dispatchAll_concat (state : RpcState Call) (earlier : List Value) (message : Value) :
    dispatchAll render state (earlier ++ [message]) =
      dispatchMessage render (dispatchAll render state earlier) message := by
  simp [dispatchAll]

theorem dispatchAll_append (state : RpcState Call) (earlier later : List Value) :
    dispatchAll render state (earlier ++ later) =
      dispatchAll render (dispatchAll render state earlier) later := by
  simp [dispatchAll]

theorem dispatchMessage_of_foreign (response : IsResponse message)
    (foreign : ∀ id, message.get "id" ≠ some (.number (.posInt id))) (state : RpcState Call) :
    dispatchMessage render state message = state := by
  rw [dispatchMessage_of_response response]
  cases decoded : (message.index "id").asU64 with
  | none => rfl
  | some id => exact absurd (asU64_index.mp decoded) (foreign id)

theorem dispatchMessage_of_id (response : IsResponse message)
    (identified : message.get "id" = some (.number (.posInt id))) (state : RpcState Call) :
    dispatchMessage render state message =
      state.resolve id (.answered (responseAnswer render message)) := by
  rw [dispatchMessage_of_response response, asU64_index.mpr identified]

theorem dispatchAll_repeated (between : List Value) (answers : IsResponse first)
    (answersAgain : IsResponse second) (same : first.get "id" = second.get "id") :
    dispatchMessage render (dispatchAll render state (first :: between)) second =
      dispatchAll render state (first :: between) := by
  by_cases identified : ∃ id, second.get "id" = some (.number (.posInt id))
  · obtain ⟨id, own⟩ := identified
    have taken : (dispatchMessage render state first).inFlight.lookup id = none := by
      rw [dispatchMessage_of_id answers (same.trans own)]
      exact (resolvesOwn_resolve state id _).taken
    have absent : (dispatchAll render state (first :: between)).inFlight.lookup id = none :=
      lookup_dispatchAll taken between
    rw [dispatchMessage_of_id answersAgain own, RpcState.resolve, absent]
  · exact dispatchMessage_of_foreign answersAgain (fun id own => identified ⟨id, own⟩) _

/-- A response resolves its request with the answer in it, unless it has a result beside an error
that is null and its request waits for it. -/
theorem dispatchMessage_carries_iff {earlier : List Value} (response : IsResponse message)
    (identified : message.get "id" = some (.number (.posInt id))) :
    (∃ answer, Carries render message answer ∧
      ResolvesOwn id answer (dispatchAll render state earlier)
        (dispatchAll render state (earlier ++ [message]))) ↔
      (Awaits state earlier id → ¬HasNullError message) := by
  rw [dispatchAll_concat, dispatchMessage_of_id response identified,
    ← @lookup_dispatchAll_iff Call _ render id state earlier]
  constructor
  · rintro ⟨answer, carries, resolves⟩ ⟨call, waits⟩
    have own := resolves.own call waits
    rw [outcomes_resolve, if_pos waits] at own
    cases own
    exact (carries_responseAnswer_iff message).mp carries
  · intro sound
    by_cases waits : ∃ call, (dispatchAll render state earlier).inFlight.lookup id = some call
    · exact ⟨_, (carries_responseAnswer_iff message).mpr (sound waits), resolvesOwn_resolve _ id _⟩
    · -- Nothing waits for the answer, so that any answer is its own.
      rcases exists_carries message with ⟨answer, carries⟩
      refine ⟨answer, carries, ?_⟩
      have absent : (dispatchAll render state earlier).inFlight.lookup id = none := by
        rw [Option.eq_none_iff_forall_ne_some]
        exact fun call found => waits ⟨call, found⟩
      rw [RpcState.resolve, absent]
      exact ⟨fun call found => absurd ⟨call, found⟩ waits, fun _ _ => rfl, absent,
        fun _ _ => rfl, rfl, rfl⟩

/-- A sequence of messages is dispatched as JSON-RPC demands exactly if the server
only asks for methods that the client knows, and no request gets a result beside an error that
is null. -/
theorem dispatchesCorrectly_iff (render : Value → String) (state : RpcState Call)
    (messages : List Value) :
    DispatchesCorrectly render state messages ↔
      (∀ message ∈ messages, IsServerRequest message → IsHandled message) ∧
      ∀ earlier message later, messages = earlier ++ message :: later → IsResponse message →
        ∀ id, message.get "id" = some (.number (.posInt id)) → Awaits state earlier id →
          ¬HasNullError message := by
  constructor
  · intro correct
    constructor
    · intro message member request
      obtain ⟨earlier, later, split⟩ := List.append_of_mem member
      obtain ⟨answer, conforms, answered⟩ := correct.request earlier message later split request
      rw [dispatchAll_concat, dispatchMessage_of_request request] at answered
      have same : serverResponse message = answer := by
        have written := congrArg RpcState.written answered
        simpa using written
      rw [← same] at conforms
      exact (conforms_serverResponse_iff request).mp conforms
    · intro earlier message later split response id identified
      exact (dispatchMessage_carries_iff response identified).mp
        (correct.response earlier message later split response id identified)
  · rintro ⟨handled, sound⟩
    constructor
    · intro earlier message later split response id identified
      exact (dispatchMessage_carries_iff response identified).mpr
        (sound earlier message later split response id identified)
    · intro earlier message later _ response foreign
      rw [dispatchAll_concat, dispatchMessage_of_foreign response foreign]
    · intro earlier first between second later _ answers answersAgain same
      rw [dispatchAll_concat, dispatchAll_append]
      exact dispatchAll_repeated between answers answersAgain same
    · intro earlier message later split request
      have member : message ∈ messages := by simp [split]
      refine ⟨serverResponse message, ?_, ?_⟩
      · exact (conforms_serverResponse_iff request).mpr (handled message member request)
      · rw [dispatchAll_concat, dispatchMessage_of_request request]

def unknownRequest : Value :=
  .object [("jsonrpc", .string "2.0"), ("id", .number (.posInt 7)),
    ("method", .string "session.unknown")]

theorem unknownRequest_dispatched :
    ¬ DispatchesCorrectly (fun _ => "") ({} : RpcState Nat) [unknownRequest] := by
  intro correct
  obtain ⟨answer, conforms, answered⟩ := correct.request [] unknownRequest [] rfl ⟨rfl, rfl⟩
  have unknown : ¬ IsHandled unknownRequest := by
    rintro ⟨method, listed, named⟩
    have name : method = "session.unknown" := by
      have same : some (Value.string "session.unknown") = some (.string method) := named
      cases same
      rfl
    rw [name] at listed
    revert listed
    decide
  have written : [serverResponse unknownRequest] = [answer] := congrArg RpcState.written answered
  have result : (serverResponse unknownRequest).get "result" = none := by
    rw [List.singleton_inj.mp written]
    exact (conforms.unknown unknown).1
  revert result
  decide

end Copilot

end HarnessAgent
