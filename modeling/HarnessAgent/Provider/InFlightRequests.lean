import HarnessAgent.Foundation.EventRun
import HarnessAgent.Provider.JsonRpcClient

/-! # Requests and the reader

Any number of requests share the table of senders with the reader. A request takes
an id, puts its sender into the table, writes its message and waits; the reader
dispatches messages until it ends, and then answers every sender it finds with an
error. The steps of all of them interleave freely.
-/

namespace HarnessAgent

namespace Copilot

inductive Phase
  | idle
  | allocated (id : Nat)
  | inserted (id : Nat)
  | failed (id : Nat)
  | waiting (id : Nat)
  | returned (result : Except RpcError Value)

/-- The id under which a request has put its sender into the table. -/
def Phase.insertedId? : Phase → Option Nat
  | .inserted id => some id
  | .failed id => some id
  | .waiting id => some id
  | .idle => none
  | .allocated _ => none
  | .returned _ => none

structure ClientState (Call : Type) where
  rpc : RpcState Call := {}
  nextId : Nat := 1
  phase : Call → Phase := fun _ => .idle
  readerEnded : Bool := false

inductive Event (Call : Type)
  | allocate (call : Call)
  | insert (call : Call)
  | write (call : Call) (succeeds : Bool)
  | remove (call : Call)
  | receive (call : Call)
  | dispatch (message : Value)
  | readerEnd (message : String)

variable {Call : Type} [DecidableEq Call]

def RpcState.insert (state : RpcState Call) (id : Nat) (call : Call) : RpcState Call :=
  let freed := state.resolve id .closed
  { freed with inFlight := freed.inFlight.insert id call }

def senders (inFlight : InFlight Call) : List Call :=
  inFlight.entries.map Sigma.snd

def drainInFlight (state : RpcState Call) (message : String) : RpcState Call :=
  { state with
    inFlight := ∅
    outcomes := fun call =>
      if call ∈ senders state.inFlight then some (.answered (.error message))
      else state.outcomes call }

def requestResult : Outcome → Except RpcError Value
  | .answered (.ok result) => .ok result
  | .answered (.error message) => .error (.remoteError message)
  | .closed => .error .channelClosed

def ClientState.setPhase (state : ClientState Call) (call : Call) (phase : Phase) :
    ClientState Call :=
  { state with phase := Function.update state.phase call phase }

variable (render : Value → String)

def clientStep (state : ClientState Call) : Event Call → ClientState Call
  | .allocate call =>
      match state.phase call with
      | .idle =>
          { state.setPhase call (.allocated state.nextId) with
            nextId := (state.nextId + 1) % 2 ^ 64 }
      | _ => state
  | .insert call =>
      match state.phase call with
      | .allocated id =>
          { state.setPhase call (.inserted id) with rpc := state.rpc.insert id call }
      | _ => state
  | .write call succeeds =>
      match state.phase call with
      | .inserted id => state.setPhase call (if succeeds then .waiting id else .failed id)
      | _ => state
  | .remove call =>
      match state.phase call with
      | .failed id =>
          { state.setPhase call (.returned (.error .send)) with
            rpc := state.rpc.resolve id .closed }
      | _ => state
  | .receive call =>
      match state.phase call, state.rpc.outcomes call with
      | .waiting _, some outcome => state.setPhase call (.returned (requestResult outcome))
      | _, _ => state
  | .dispatch message =>
      if state.readerEnded then state
      else { state with rpc := dispatchMessage render state.rpc message }
  | .readerEnd message =>
      if state.readerEnded then state
      else { state with rpc := drainInFlight state.rpc message, readerEnded := true }

def clientRun (state : ClientState Call) (events : List (Event Call)) : ClientState Call :=
  EventRun.run (clientStep render) state events

/-- No request is left behind: one that waits has something to receive, and when no
request is about to write or to clean up, the table is empty. -/
structure NoneLost (state : ClientState Call) : Prop where
  returns : ∀ call id, state.phase call = .waiting id →
    ∃ result, (clientStep render state (.receive call)).phase call = .returned result
  emptied : (∀ call id, state.phase call ≠ .inserted id ∧ state.phase call ≠ .failed id) →
    state.rpc.inFlight = ∅

/-- If a request writes successfully after the reader has ended, its sender is no
longer in the table: it was put there before the table was drained. -/
def LateWriteFails (state : ClientState Call) (event : Event Call) : Prop :=
  ∀ call id, event = .write call true → state.phase call = .inserted id →
    state.readerEnded = true → state.rpc.inFlight.lookup id ≠ some call

/-! ## Senders -/

/-- A request that has not put a sender into the table yet. -/
def Phase.Early : Phase → Prop
  | .idle => True
  | .allocated _ => True
  | _ => False

/-- A sender in the table is that of a request which waits for it, under the id of
the request; and the sender of such a request is in the table until it is used. -/
structure Sound (rpc : RpcState Call) (phase : Call → Phase) : Prop where
  owner : ∀ id call, rpc.inFlight.lookup id = some call → (phase call).insertedId? = some id
  pending : ∀ id call, rpc.inFlight.lookup id = some call → rpc.outcomes call = none
  held : ∀ id call, (phase call).insertedId? = some id → rpc.outcomes call = none →
    rpc.inFlight.lookup id = some call
  early : ∀ call, (phase call).Early → rpc.outcomes call = none

theorem Phase.Early.insertedId {phase : Phase} (early : phase.Early) :
    phase.insertedId? = none := by
  cases phase <;> first | rfl | exact early.elim

variable {phase : Call → Phase} {rpc : RpcState Call}

omit [DecidableEq Call] in
theorem Sound.congr {other : RpcState Call} (sound : Sound rpc phase)
    (table : other.inFlight = rpc.inFlight) (outcomes : other.outcomes = rpc.outcomes) :
    Sound other phase := by
  rcases sound with ⟨owner, pending, held, early⟩
  rw [← table, ← outcomes] at *
  exact ⟨owner, pending, held, early⟩

theorem Sound.resolve (sound : Sound rpc phase) (id : Nat) (outcome : Outcome) :
    Sound (rpc.resolve id outcome) phase := by
  constructor
  · intro other call found
    rw [lookup_resolve] at found
    split at found
    · cases found
    · exact sound.owner other call found
  · intro other call found
    rw [lookup_resolve] at found
    split at found
    · cases found
    · next different =>
        rw [outcomes_resolve]
        split
        · next own =>
            have one := (sound.owner id call own).symm.trans (sound.owner other call found)
            exact absurd (Option.some.inj one).symm different
        · exact sound.pending other call found
  · intro other call inserted unresolved
    rw [outcomes_resolve] at unresolved
    split at unresolved
    · cases unresolved
    · next notOwn =>
        have found := sound.held other call inserted unresolved
        have different : other ≠ id := by
          rintro rfl
          exact notOwn found
        rw [lookup_resolve, if_neg different, found]
  · intro call early
    rw [outcomes_resolve]
    split
    · next own =>
        have inserted := sound.owner id call own
        rw [early.insertedId] at inserted
        cases inserted
    · exact sound.early call early

variable {call : Call}

/-- A request moves on without touching the table. -/
theorem Sound.setPhase (sound : Sound rpc phase)
    (owner : ∀ id, rpc.inFlight.lookup id = some call → next.insertedId? = some id)
    (held : ∀ id, next.insertedId? = some id → rpc.outcomes call = none →
      rpc.inFlight.lookup id = some call) (early : next.Early → rpc.outcomes call = none) :
    Sound rpc (Function.update phase call next) := by
  constructor
  · intro id other found
    by_cases same : other = call
    · subst same
      rw [Function.update_self]
      exact owner id found
    · rw [Function.update_of_ne same]
      exact sound.owner id other found
  · exact sound.pending
  · intro id other inserted unresolved
    by_cases same : other = call
    · subst same
      rw [Function.update_self] at inserted
      exact held id inserted unresolved
    · rw [Function.update_of_ne same] at inserted
      exact sound.held id other inserted unresolved
  · intro other first
    by_cases same : other = call
    · subst same
      rw [Function.update_self] at first
      exact early first
    · rw [Function.update_of_ne same] at first
      exact sound.early other first

theorem Sound.move (sound : Sound rpc phase) (same : next.insertedId? = (phase call).insertedId?)
    (early : next.Early → (phase call).Early) : Sound rpc (Function.update phase call next) := by
  apply sound.setPhase
  · intro id found
    rw [same]
    exact sound.owner id call found
  · intro id inserted unresolved
    rw [same] at inserted
    exact sound.held id call inserted unresolved
  · intro first
    exact sound.early call (early first)

theorem Sound.return (sound : Sound rpc phase) (gone : ∀ id, rpc.inFlight.lookup id ≠ some call)
    (result : Except RpcError Value) :
    Sound rpc (Function.update phase call (.returned result)) := by
  apply sound.setPhase
  · intro id found
    exact absurd found (gone id)
  · intro id inserted
    cases inserted
  · intro first
    exact first.elim

theorem lookup_insert (rpc : RpcState Call) (id other : Nat) (call : Call) :
    (rpc.insert id call).inFlight.lookup other =
      if other = id then some call else (rpc.resolve id .closed).inFlight.lookup other := by
  split
  · next same =>
      rw [same]
      exact AList.lookup_insert _
  · next different => exact AList.lookup_insert_ne different

theorem Sound.insert (sound : Sound rpc phase) (early : (phase call).Early) (id : Nat) :
    Sound (rpc.insert id call) (Function.update phase call (.inserted id)) := by
  have freed := sound.resolve id .closed
  have empty : (rpc.resolve id .closed).inFlight.lookup id = none := by
    rw [lookup_resolve, if_pos rfl]
  have unresolved := freed.early call early
  -- Only the table differs between the freed state and the state after the step.
  have absent : ∀ other, (rpc.resolve id .closed).inFlight.lookup other ≠ some call := by
    intro other listed
    have inserted := freed.owner other call listed
    rw [early.insertedId] at inserted
    cases inserted
  constructor
  · intro other owner listed
    rw [lookup_insert] at listed
    split at listed
    · next same =>
        cases listed
        rw [Function.update_self, same]
        rfl
    · have different : owner ≠ call := by
        rintro rfl
        exact absent other listed
      rw [Function.update_of_ne different]
      exact freed.owner other owner listed
  · intro other owner listed
    rw [lookup_insert] at listed
    split at listed
    · cases listed
      exact unresolved
    · exact freed.pending other owner listed
  · intro other owner inserted unanswered
    rw [lookup_insert]
    by_cases same : owner = call
    · subst same
      rw [Function.update_self] at inserted
      cases inserted
      rw [if_pos rfl]
    · rw [Function.update_of_ne same] at inserted
      have listed := freed.held other owner inserted unanswered
      have different : other ≠ id := by
        rintro rfl
        rw [empty] at listed
        cases listed
      rw [if_neg different, listed]
  · intro owner first
    by_cases same : owner = call
    · subst same
      exact unresolved
    · rw [Function.update_of_ne same] at first
      exact freed.early owner first

omit [DecidableEq Call] in
theorem mem_senders {inFlight : InFlight Call} :
    call ∈ senders inFlight ↔ ∃ id, inFlight.lookup id = some call := by
  constructor
  · intro member
    obtain ⟨entry, listed, rfl⟩ := List.mem_map.mp member
    exact ⟨entry.1, AList.mem_lookup_iff.mpr listed⟩
  · rintro ⟨id, found⟩
    exact List.mem_map.mpr ⟨⟨id, call⟩, AList.mem_lookup_iff.mp found, rfl⟩

theorem Sound.drain (sound : Sound rpc phase) (message : String) :
    Sound (drainInFlight rpc message) phase := by
  constructor
  · intro id call found
    cases found
  · intro id call found
    cases found
  · intro id call inserted unresolved
    simp only [drainInFlight] at unresolved
    split at unresolved
    · cases unresolved
    · next gone =>
        have found := sound.held id call inserted unresolved
        exact absurd (mem_senders.mpr ⟨id, found⟩) gone
  · intro call early
    simp only [drainInFlight]
    split
    · next listed =>
        obtain ⟨id, found⟩ := mem_senders.mp listed
        have inserted := sound.owner id call found
        rw [early.insertedId] at inserted
        cases inserted
    · exact sound.early call early

/-! ## Steps -/

variable {state : ClientState Call}

theorem sound_clientStep (sound : Sound state.rpc state.phase) (event : Event Call) :
    Sound (clientStep render state event).rpc (clientStep render state event).phase := by
  cases event with
  | allocate call =>
      simp only [clientStep]
      split
      · next idle =>
          apply sound.move
          · rw [idle]
            rfl
          · intro
            rw [idle]
            trivial
      · exact sound
  | insert call =>
      simp only [clientStep]
      split
      · next id allocated => exact sound.insert (by rw [allocated]; trivial) id
      · exact sound
  | write call succeeds =>
      simp only [clientStep]
      split
      · next id inserted =>
          apply sound.move
          · rw [inserted]
            cases succeeds <;> rfl
          · cases succeeds <;> exact fun first => first.elim
      · exact sound
  | remove call =>
      simp only [clientStep]
      split
      · next id failed =>
          have removed := sound.resolve id .closed
          apply removed.return
          intro other found
          have own := removed.owner other call found
          rw [failed] at own
          cases own
          rw [lookup_resolve, if_pos rfl] at found
          cases found
      · exact sound
  | receive call =>
      simp only [clientStep]
      split
      · next id outcome _ received =>
          apply sound.return
          intro other found
          rw [sound.pending other call found] at received
          cases received
      · exact sound
  | dispatch message =>
      simp only [clientStep]
      split
      · exact sound
      · rcases dispatchMessage_cases state.rpc message with ⟨table, outcomes⟩ | ⟨id, outcome, same⟩
        · exact sound.congr table outcomes
        · rw [same]
          exact sound.resolve id outcome
  | readerEnd message =>
      simp only [clientStep]
      split
      · exact sound
      · exact sound.drain message

/-- After the end of the reader no sender of a waiting request is in the table. -/
def Released (state : ClientState Call) : Prop :=
  state.readerEnded = true → ∀ id call, state.rpc.inFlight.lookup id = some call →
    state.phase call ≠ .waiting id

theorem waiting_of_update {id : Nat} (moves : ∀ id, next ≠ .waiting id)
    (waits : Function.update phase call next other = .waiting id) : phase other = .waiting id := by
  by_cases same : other = call
  · subst same
    rw [Function.update_self] at waits
    exact absurd waits (moves id)
  · rwa [Function.update_of_ne same] at waits

theorem lookup_of_lookup_resolve {id : Nat}
    (found : (rpc.resolve id outcome).inFlight.lookup other = some call) :
    rpc.inFlight.lookup other = some call := by
  rw [lookup_resolve] at found
  split at found
  · cases found
  · exact found

theorem released_clientStep (released : Released state) (lateFails : LateWriteFails state event) :
    Released (clientStep render state event) := by
  cases event with
  | allocate call =>
      simp only [clientStep]
      split
      · intro ended id owner found waits
        exact released ended id owner found (waiting_of_update (by simp) waits)
      · exact released
  | insert call =>
      simp only [clientStep]
      split
      · next own allocated =>
          intro ended id owner found waits
          have waited := waiting_of_update (by simp) waits
          rw [lookup_insert] at found
          split at found
          · cases found
            rw [allocated] at waited
            cases waited
          · exact released ended id owner (lookup_of_lookup_resolve found) waited
      · exact released
  | write call succeeds =>
      simp only [clientStep]
      split
      · next own inserted =>
          intro ended id owner found waits
          cases succeeds with
          | false => exact released ended id owner found (waiting_of_update (by simp) waits)
          | true =>
              by_cases same : owner = call
              · subst same
                simp only [ClientState.setPhase, Function.update_self, if_true] at waits
                cases waits
                exact lateFails owner own rfl inserted ended found
              · simp only [ClientState.setPhase, Function.update_of_ne same] at waits
                exact released ended id owner found waits
      · exact released
  | remove call =>
      simp only [clientStep]
      split
      · intro ended id owner found waits
        exact released ended id owner (lookup_of_lookup_resolve found)
          (waiting_of_update (by simp) waits)
      · exact released
  | receive call =>
      simp only [clientStep]
      split
      · intro ended id owner found waits
        exact released ended id owner found (waiting_of_update (by simp) waits)
      · exact released
  | dispatch message =>
      simp only [clientStep]
      split
      · exact released
      · next running =>
          intro ended
          exact absurd ended running
  | readerEnd message =>
      simp only [clientStep]
      split
      · exact released
      · intro _ id owner found
        cases found

/-! ## Runs -/

theorem noneLost_of_released (sound : Sound state.rpc state.phase) (released : Released state)
    (ended : state.readerEnded = true) : NoneLost render state := by
  constructor
  · intro call id waits
    cases received : state.rpc.outcomes call with
    | none =>
        have found := sound.held id call (by rw [waits]; rfl) received
        exact absurd waits (released ended id call found)
    | some outcome =>
        refine ⟨requestResult outcome, ?_⟩
        simp only [clientStep, waits, received, ClientState.setPhase, Function.update_self]
  · intro settled
    have empty : state.rpc.inFlight.entries = [] := by
      apply List.eq_nil_iff_forall_not_mem.mpr
      rintro ⟨id, call⟩ listed
      have found : state.rpc.inFlight.lookup id = some call := AList.mem_lookup_iff.mpr listed
      have inserted := sound.owner id call found
      have waits := released ended id call found
      cases phase : state.phase call with
      | inserted own => exact (settled call own).1 phase
      | failed own => exact (settled call own).2 phase
      | waiting own =>
          rw [phase] at inserted
          cases inserted
          exact waits phase
      | idle => rw [phase] at inserted; cases inserted
      | allocated own => rw [phase] at inserted; cases inserted
      | returned result => rw [phase] at inserted; cases inserted
    exact AList.ext empty

/-- A write that succeeds too late leaves its request waiting for nothing. -/
theorem lost_of_late_write (sound : Sound state.rpc state.phase) {id : Nat}
    (inserted : state.phase call = .inserted id)
    (found : state.rpc.inFlight.lookup id = some call) :
    ¬ NoneLost render (clientStep render state (.write call true)) := by
  intro kept
  have written : clientStep render state (.write call true) =
      state.setPhase call (.waiting id) := by
    simp only [clientStep, inserted, if_true]
  have waits : (state.setPhase call (.waiting id)).phase call = .waiting id :=
    Function.update_self ..
  have unanswered : (state.setPhase call (.waiting id)).rpc.outcomes call = none :=
    sound.pending id call found
  rw [written] at kept
  obtain ⟨result, returns⟩ := kept.returns call id waits
  simp only [clientStep, waits, unanswered] at returns
  cases returns

theorem readerEnded_write (state : ClientState Call) (call : Call) (succeeds : Bool) :
    (clientStep render state (.write call succeeds)).readerEnded = state.readerEnded := by
  simp only [clientStep]
  split <;> rfl

omit [DecidableEq Call] in
theorem sound_initial : Sound ({} : RpcState Call) (fun _ => .idle) := by
  constructor
  · intro id call found
    cases found
  · intro id call found
    cases found
  · intro id call inserted
    cases inserted
  · intro call _
    rfl

/-- Once the reader has ended, no request is lost in any state of a run, exactly if
every write that succeeds after the end belongs to a request whose sender the
reader has drained. -/
theorem noneLost_iff_lateWritesFail (render : Value → String) (events : List (Event Call)) :
    EventRun.Throughout (clientStep render)
        (fun state => state.readerEnded = true → NoneLost render state) {} events ↔
      EventRun.Along (clientStep render) LateWriteFails {} events := by
  apply @EventRun.throughout_iff_along _ _ _
    (fun state => Sound state.rpc state.phase ∧ Released state)
  · rintro state ⟨sound, released⟩
    exact noneLost_of_released render sound released
  · rintro state event ⟨sound, released⟩ lateFails
    exact ⟨sound_clientStep render sound event, released_clientStep render released lateFails⟩
  · rintro state event ⟨sound, -⟩ late kept
    simp only [LateWriteFails, not_forall, not_not] at late
    obtain ⟨call, id, rfl, inserted, ended, found⟩ := late
    apply lost_of_late_write render sound inserted found
    exact kept ((readerEnded_write render state call true).trans ended)
  · refine ⟨sound_initial, ?_⟩
    intro ended
    cases ended

/-- The reader ends on a frame it cannot decode, while the pipe to the subprocess
still takes messages. -/
def lateRequest : List (Event Nat) :=
  [.allocate 0, .readerEnd "malformed Content-Length header", .insert 0, .write 0 true]

theorem lateRequest_lost :
    (clientRun (fun _ => "") {} lateRequest).readerEnded = true ∧
      ¬ NoneLost (fun _ => "") (clientRun (fun _ => "") {} lateRequest) := by
  refine ⟨rfl, ?_⟩
  intro kept
  obtain ⟨result, returns⟩ := kept.returns 0 1 rfl
  cases returns

end Copilot

end HarnessAgent
