import HarnessAgent.Foundation.EventRun
import HarnessAgent.Foundation.Json

/-! # Transactions over the connections of a pool

`with_transaction` sends BEGIN, COMMIT and ROLLBACK as texts over a connection of the
pool. The pool knows nothing of transactions: a connection goes back to it as it was
left.
-/

namespace HarnessAgent

namespace SqliteAdapter

/-! ## The engine -/

inductive Statement (ω : Type)
  | read
  | write (change : ω)
  | begin
  | commit
  | rollback

/-- How the engine answers a statement that is legal where it stands. A refused COMMIT
leaves the transaction open; a full disk or a failing device ends it. -/
inductive Answer
  | done
  | refused
  | aborted

inductive SqlxError
  | poolTimedOut
  | database

inductive DbError
  | queryFailed (error : SqlxError)
  | returningNotSupportedOnMutation (queryPrefix : String)
  | dialectNotInitialized
  | io (message : String)
  | serialize (message : String)

structure Connection (ω : Type) where
  transaction : Option (List ω)

variable {ω : Type}

def Connection.new : Connection ω := ⟨none⟩

structure Execution (ω : Type) where
  result : Except DbError Unit
  connection : Connection ω
  committed : List ω

def Execution.failed (connection : Connection ω) : Execution ω :=
  ⟨.error (.queryFailed .database), connection, []⟩

def Connection.execute (connection : Connection ω) (statement : Statement ω)
    (answer : Answer) : Execution ω :=
  match statement, connection.transaction, answer with
  | .begin, none, .done => ⟨.ok (), ⟨some []⟩, []⟩
  | .begin, none, .refused => .failed connection
  | .begin, none, .aborted => .failed connection
  | .begin, some _, _ => .failed connection
  | .commit, none, _ => .failed connection
  | .commit, some changes, .done => ⟨.ok (), .new, changes⟩
  | .commit, some _, .refused => .failed connection
  | .commit, some _, .aborted => .failed .new
  | .rollback, none, _ => .failed connection
  | .rollback, some _, _ => ⟨.ok (), .new, []⟩
  | .write change, none, .done => ⟨.ok (), connection, [change]⟩
  | .write change, some changes, .done => ⟨.ok (), ⟨some (changes ++ [change])⟩, []⟩
  | .read, _, .done => ⟨.ok (), connection, []⟩
  | _, _, .refused => .failed connection
  | _, _, .aborted => .failed .new

/-! ## The adapter -/

/-- The pool's idle connections, the connections of the `with_transaction` calls whose
closure runs, and what a reopened database would show. -/
structure Adapter (ω : Type) where
  idle : List (Connection ω)
  calls : List (Connection ω)
  database : List ω

/-- The adapter after `open`, whose own statements leave the connections idle. -/
def Adapter.opened (connections : Nat) : Adapter ω :=
  ⟨List.replicate connections .new, [], []⟩

inductive Handout
  | idle (index : Nat)
  | connect

def Adapter.acquire (maxConnections : Nat) (adapter : Adapter ω) :
    Handout → Option (Connection ω × List (Connection ω))
  | .idle index =>
      match adapter.idle[index]? with
      | none => none
      | some connection => some (connection, adapter.idle.eraseIdx index)
  | .connect =>
      if adapter.idle.length + adapter.calls.length < maxConnections then
        some (.new, adapter.idle)
      else none

section Calls

variable (maxConnections : Nat)

def Adapter.query (adapter : Adapter ω) (handout : Handout) (statement : Statement ω)
    (answer : Answer) : Except DbError Unit × Adapter ω :=
  match adapter.acquire maxConnections handout with
  | none => (.error (.queryFailed .poolTimedOut), adapter)
  | some (connection, others) =>
      let execution := connection.execute statement answer
      (execution.result,
        { adapter with
            idle := execution.connection :: others
            database := adapter.database ++ execution.committed })

/-- `with_transaction` up to the closure: where BEGIN fails, the error is returned and the
connection dropped. -/
def Adapter.beginTransaction (adapter : Adapter ω) (handout : Handout) (answer : Answer) :
    Except DbError Unit × Adapter ω :=
  match adapter.acquire maxConnections handout with
  | none => (.error (.queryFailed .poolTimedOut), adapter)
  | some (connection, others) =>
      let execution := connection.execute .begin answer
      match execution.result with
      | .ok () =>
          (.ok (),
            { adapter with idle := others, calls := execution.connection :: adapter.calls })
      | .error error => (.error error, { adapter with idle := execution.connection :: others })

end Calls

def Adapter.executorQuery (adapter : Adapter ω) (call : Nat) (statement : Statement ω)
    (answer : Answer) : Adapter ω :=
  match adapter.calls[call]? with
  | none => adapter
  | some connection =>
      let execution := connection.execute statement answer
      { adapter with
          calls := adapter.calls.set call execution.connection
          database := adapter.database ++ execution.committed }

def finish (connection : Connection ω) (result : Except DbError Value) (answer : Answer) :
    Except DbError Value × Execution ω :=
  match result with
  | .ok value =>
      let execution := connection.execute .commit answer
      match execution.result with
      | .ok () => (.ok value, execution)
      | .error error => (.error error, execution)
  | .error originalError =>
      -- an error of ROLLBACK is only logged
      (.error originalError, connection.execute .rollback answer)

def Adapter.finishTransaction (adapter : Adapter ω) (call : Nat)
    (result : Except DbError Value) (answer : Answer) : Adapter ω :=
  match adapter.calls[call]? with
  | none => adapter
  | some connection =>
      let execution := (finish connection result answer).2
      { idle := execution.connection :: adapter.idle
        calls := adapter.calls.eraseIdx call
        database := adapter.database ++ execution.committed }

/-- The future of a call is dropped while its closure waits. -/
def Adapter.dropTransaction (adapter : Adapter ω) (call : Nat) : Adapter ω :=
  match adapter.calls[call]? with
  | none => adapter
  | some connection =>
      { adapter with
          idle := connection :: adapter.idle
          calls := adapter.calls.eraseIdx call }

inductive Event (ω : Type)
  | query (handout : Handout) (statement : Statement ω) (answer : Answer)
  | beginTransaction (handout : Handout) (answer : Answer)
  | executorQuery (call : Nat) (statement : Statement ω) (answer : Answer)
  | finishTransaction (call : Nat) (result : Except DbError Value) (answer : Answer)
  | dropTransaction (call : Nat)

def step (maxConnections : Nat) (adapter : Adapter ω) : Event ω → Adapter ω
  | .query handout statement answer =>
      (adapter.query maxConnections handout statement answer).2
  | .beginTransaction handout answer =>
      (adapter.beginTransaction maxConnections handout answer).2
  | .executorQuery call statement answer => adapter.executorQuery call statement answer
  | .finishTransaction call result answer => adapter.finishTransaction call result answer
  | .dropTransaction call => adapter.dropTransaction call

/-! ## Statements and transactions -/

namespace Connection

@[simp] theorem transaction_new : (Connection.new : Connection ω).transaction = none := rfl

variable {connection : Connection ω}

theorem transaction_execute_of_outside (outside : connection.transaction = none)
    {statement : Statement ω} {answer : Answer} :
    (connection.execute statement answer).connection.transaction = none ↔
      ¬ (statement = .begin ∧ answer = .done) := by
  unfold execute
  rw [outside]
  cases statement <;> cases answer <;> simp [Execution.failed, outside]

theorem execute_write_of_outside (outside : connection.transaction = none) (change : ω) :
    connection.execute (.write change) .done = ⟨.ok (), connection, [change]⟩ := by
  unfold execute
  rw [outside]

theorem execute_begin_of_outside (outside : connection.transaction = none) :
    connection.execute .begin .done = ⟨.ok (), ⟨some []⟩, []⟩ := by
  unfold execute
  rw [outside]

theorem execute_begin_error (fails : (connection.execute .begin answer).result = .error error) :
    (connection.execute .begin answer).connection = connection := by
  unfold execute at fails ⊢
  cases held : connection.transaction with
  | some changes => rfl
  | none =>
      cases answer with
      | done => simp [held] at fails
      | refused => rfl
      | aborted => rfl

theorem transaction_commit {connection : Connection ω} {answer : Answer} :
    (connection.execute .commit answer).connection.transaction = none ↔
      (connection.transaction ≠ none → answer ≠ .refused) := by
  unfold execute
  cases held : connection.transaction with
  | none => simp [Execution.failed, held]
  | some changes => cases answer <;> simp [Execution.failed, held]

theorem transaction_rollback (connection : Connection ω) (answer : Answer) :
    (connection.execute .rollback answer).connection.transaction = none := by
  unfold execute
  cases held : connection.transaction with
  | none => exact held
  | some changes => rfl

end Connection

variable {answer : Answer}

theorem transaction_finish {connection : Connection ω} {result : Except DbError Value} :
    (finish connection result answer).2.connection.transaction = none ↔
      (result.isOk = true → connection.transaction ≠ none → answer ≠ .refused) := by
  cases result with
  | error originalError =>
      simp [finish, Except.isOk, Except.toBool, Connection.transaction_rollback]
  | ok value =>
      have closed := @Connection.transaction_commit ω connection answer
      simp only [finish]
      split
      · simpa [Except.isOk, Except.toBool] using closed
      · simpa [Except.isOk, Except.toBool] using closed

/-! ## Hygiene -/

namespace Adapter

variable {maxConnections : Nat} {adapter : Adapter ω}

def Outside (adapter : Adapter ω) : Prop :=
  ∀ connection ∈ adapter.idle, connection.transaction = none

structure Hygienic (maxConnections : Nat) (adapter : Adapter ω) : Prop where
  outside : adapter.Outside
  durable : ∀ handout change, (adapter.acquire maxConnections handout).isSome = true →
    (adapter.query maxConnections handout (.write change) .done).1 = .ok () ∧
    (adapter.query maxConnections handout (.write change) .done).2.database =
      adapter.database ++ [change]
  begins : ∀ handout, (adapter.acquire maxConnections handout).isSome = true →
    (adapter.beginTransaction maxConnections handout .done).1 = .ok ()

theorem outside_opened (connections : Nat) : (opened connections : Adapter ω).Outside := by
  intro connection member
  rw [List.eq_of_mem_replicate member, Connection.transaction_new]

theorem mem_of_acquire
    (acquired : adapter.acquire maxConnections handout = some (connection, others)) :
    (connection ∈ adapter.idle ∨ connection = .new) ∧ ∀ other ∈ others, other ∈ adapter.idle := by
  cases handout with
  | idle index =>
      simp only [acquire] at acquired
      split at acquired
      · cases acquired
      · next found =>
          cases acquired
          exact ⟨.inl (List.mem_of_getElem? found), fun other => List.mem_of_mem_eraseIdx⟩
  | connect =>
      simp only [acquire] at acquired
      split at acquired
      · cases acquired
        exact ⟨.inr rfl, fun other member => member⟩
      · cases acquired

theorem Outside.acquired (clean : adapter.Outside)
    (acquired : adapter.acquire maxConnections handout = some (connection, others)) :
    connection.transaction = none ∧ ∀ other ∈ others, other.transaction = none := by
  have members := mem_of_acquire acquired
  constructor
  · rcases members.1 with idle | new
    · exact clean connection idle
    · rw [new, Connection.transaction_new]
  · intro other member
    exact clean other (members.2 other member)

theorem Outside.hygienic (clean : adapter.Outside) : adapter.Hygienic maxConnections where
  outside := clean
  durable := by
    intro handout change handed
    rcases Option.isSome_iff_exists.mp handed with ⟨⟨connection, others⟩, acquired⟩
    have outside := (clean.acquired acquired).1
    simp only [query, acquired, Connection.execute_write_of_outside outside, and_self]
  begins := by
    intro handout handed
    rcases Option.isSome_iff_exists.mp handed with ⟨⟨connection, others⟩, acquired⟩
    have outside := (clean.acquired acquired).1
    simp only [beginTransaction, acquired, Connection.execute_begin_of_outside outside]

/-! ### One event -/

theorem outside_giveBack {connection : Connection ω}
    (clean : ∀ other ∈ others, other.transaction = none) (calls : List (Connection ω))
    (database : List ω) :
    (Adapter.mk (connection :: others) calls database).Outside ↔
      connection.transaction = none := by
  simp only [Outside, List.forall_mem_cons]
  exact ⟨fun both => both.1, fun outside => ⟨outside, clean⟩⟩

theorem outside_query (clean : adapter.Outside) {handout : Handout} {statement : Statement ω} :
    (adapter.query maxConnections handout statement answer).2.Outside ↔
      ((adapter.acquire maxConnections handout).isSome = true →
        ¬ (statement = .begin ∧ answer = .done)) := by
  cases acquired : adapter.acquire maxConnections handout with
  | none => simpa [query, acquired] using clean
  | some handed =>
      rcases handed with ⟨connection, others⟩
      have outside := clean.acquired acquired
      simp only [query, acquired, outside_giveBack outside.2,
        Connection.transaction_execute_of_outside outside.1, Option.isSome_some, forall_const]

theorem outside_beginTransaction (clean : adapter.Outside) (handout : Handout)
    (answer : Answer) :
    (adapter.beginTransaction maxConnections handout answer).2.Outside := by
  cases acquired : adapter.acquire maxConnections handout with
  | none => simpa [beginTransaction, acquired] using clean
  | some handed =>
      rcases handed with ⟨connection, others⟩
      have outside := clean.acquired acquired
      simp only [beginTransaction, acquired]
      split
      · exact outside.2
      · next fails =>
          rw [Connection.execute_begin_error fails]
          exact (outside_giveBack outside.2 _ _).mpr outside.1

theorem outside_executorQuery (clean : adapter.Outside) (call : Nat)
    (statement : Statement ω) (answer : Answer) :
    (adapter.executorQuery call statement answer).Outside := by
  unfold executorQuery
  split
  · exact clean
  · exact clean

theorem outside_finishTransaction (clean : adapter.Outside) {call : Nat}
    {result : Except DbError Value} :
    (adapter.finishTransaction call result answer).Outside ↔
      ∀ connection, adapter.calls[call]? = some connection → result.isOk = true →
        connection.transaction ≠ none → answer ≠ .refused := by
  unfold finishTransaction
  split
  · next absent => simpa [absent] using clean
  · next connection present =>
      rw [outside_giveBack clean, transaction_finish]
      simp only [present, Option.some.injEq, forall_eq']

theorem outside_dropTransaction (clean : adapter.Outside) {call : Nat} :
    (adapter.dropTransaction call).Outside ↔
      ∀ connection, adapter.calls[call]? = some connection → connection.transaction = none := by
  unfold dropTransaction
  split
  · next absent => simpa [absent] using clean
  · next connection present =>
      rw [outside_giveBack clean]
      simp only [present, Option.some.injEq, forall_eq']

end Adapter

/-- No BEGIN is sent as a query of its own, no COMMIT of an open transaction is refused,
and no call is dropped with a transaction open. -/
def Restores (maxConnections : Nat) (adapter : Adapter ω) : Event ω → Prop
  | .query handout statement answer =>
      (adapter.acquire maxConnections handout).isSome = true →
        ¬ (statement = .begin ∧ answer = .done)
  | .beginTransaction _ _ => True
  | .executorQuery _ _ _ => True
  | .finishTransaction call result answer =>
      ∀ connection, adapter.calls[call]? = some connection → result.isOk = true →
        connection.transaction ≠ none → answer ≠ .refused
  | .dropTransaction call =>
      ∀ connection, adapter.calls[call]? = some connection → connection.transaction = none

theorem outside_step {maxConnections : Nat} (clean : adapter.Outside) {event : Event ω} :
    (step maxConnections adapter event).Outside ↔ Restores maxConnections adapter event := by
  cases event with
  | query handout statement answer => exact Adapter.outside_query clean
  | beginTransaction handout answer =>
      exact iff_of_true (Adapter.outside_beginTransaction clean handout answer) trivial
  | executorQuery call statement answer =>
      exact iff_of_true (Adapter.outside_executorQuery clean call statement answer) trivial
  | finishTransaction call result answer => exact Adapter.outside_finishTransaction clean
  | dropTransaction call => exact Adapter.outside_dropTransaction clean

/-- The pool is hygienic throughout a run exactly when every event of it restores the
connection that it gives back. -/
theorem hygienic_iff (maxConnections connections : Nat) (events : List (Event ω)) :
    EventRun.Throughout (step maxConnections) (Adapter.Hygienic maxConnections)
        (Adapter.opened connections) events ↔
      EventRun.Along (step maxConnections) (Restores maxConnections)
        (Adapter.opened connections) events := by
  apply EventRun.throughout_iff_along (fun clean => Adapter.Outside.hygienic clean)
  · intro adapter event clean restores
    exact (outside_step clean).mpr restores
  · intro adapter event clean broken hygienic
    exact broken ((outside_step clean).mp hygienic.outside)
  · exact Adapter.outside_opened connections

def busyCommit : List (Event Nat) :=
  [.beginTransaction (.idle 0) .done, .executorQuery 0 (.write 1) .done,
    .finishTransaction 0 (.ok .null) .refused]

theorem not_hygienic_busyCommit :
    ¬ (∀ events : List (Event Nat), EventRun.Throughout (step 10) (Adapter.Hygienic 10)
        (Adapter.opened 1) events) ∧
      ((EventRun.run (step 10) (Adapter.opened 1) busyCommit).query 10 (.idle 0)
        (.write 2) .done).1 = .ok () ∧
      ((EventRun.run (step 10) (Adapter.opened 1) busyCommit).query 10 (.idle 0)
        (.write 2) .done).2.database = [] ∧
      ((EventRun.run (step 10) (Adapter.opened 1) busyCommit).beginTransaction 10 (.idle 0)
        .done).1 = .error (.queryFailed .database) := by
  refine ⟨?_, rfl, rfl, rfl⟩
  intro always
  have hygienic := always busyCommit busyCommit [] (List.append_nil _).symm
  have outside := hygienic.outside ⟨some [1]⟩ (.head _)
  cases outside

end SqliteAdapter

end HarnessAgent
