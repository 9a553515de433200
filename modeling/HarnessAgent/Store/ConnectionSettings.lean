import HarnessAgent.Foundation.Text
import HarnessAgent.Store.TransactionPool

/-! # Settings of the connections

`open` gives the pool its connect options, and turns the foreign keys off with a statement of
its own. The statement reaches one connection; every other connection of the pool is set up
by the options alone.
-/

namespace HarnessAgent

namespace SqliteAdapter

namespace Settings

open EventRun

/-! ## Connections -/

inductive JournalMode
  | delete
  | truncate
  | persist
  | memory
  | wal
  | off
  deriving DecidableEq, Repr

inductive Synchronous
  | off
  | normal
  | full
  | extra
  deriving DecidableEq, Repr

structure ConnectOptions where
  createIfMissing : Bool := false
  journalMode : Option JournalMode := none
  busyTimeoutMs : Nat := 5000
  synchronous : Option Synchronous := none
  foreignKeys : Bool := true
  deriving DecidableEq, Repr

def openOptions : ConnectOptions where
  createIfMissing := true
  journalMode := some .wal
  busyTimeoutMs := 5000
  synchronous := some .normal

structure PoolConnection where
  busyTimeoutMs : Nat
  synchronous : Option Synchronous
  foreignKeys : Bool
  deriving DecidableEq, Repr

def ConnectOptions.connect (options : ConnectOptions) : PoolConnection where
  busyTimeoutMs := options.busyTimeoutMs
  synchronous := options.synchronous
  foreignKeys := options.foreignKeys

/-! ## The engine -/

structure Query where
  sql : String
  params : List Value
  deriving DecidableEq, Repr

structure Applied (δ : Type) where
  rows : List Value
  rowsAffected : Nat
  database : δ

/-- SQLite: what a statement does where foreign keys are not enforced, and what their
enforcement makes of the change at the end of the statement. It may refuse the change, or
carry it on to the rows that refer to what was changed, which for a replaced row is something
else than for an updated one; and it may refuse to drop a table. -/
structure Engine where
  Database : Type
  apply : Query → Database → Except SqlxError (Applied Database)
  enforce : Query → Database → Database → Except SqlxError Database
  /-- `PRAGMA foreign_keys = ...` -/
  foreignKeysSet : String → Option Bool

variable (engine : Engine)

/-- A refused change is reverted. -/
def Engine.run (foreignKeys : Bool) (query : Query) (database : engine.Database) :
    Except SqlxError (Applied engine.Database) :=
  match engine.apply query database with
  | .error error => .error error
  | .ok applied =>
      if foreignKeys then
        (engine.enforce query database applied.database).map fun settled =>
          { applied with database := settled }
      else .ok applied

/-- Enforcement has nothing to refuse in the statement and nothing to add to it. -/
def Engine.Spares (query : Query) (database : engine.Database) : Prop :=
  ∀ applied, engine.apply query database = .ok applied →
    engine.enforce query database applied.database = .ok applied.database

/-! ## Dispatch -/

def hidePlaceholders (inNumber : Bool) : List Char → List Char
  | [] => []
  | character :: rest =>
      if inNumber && Text.isAsciiDigit character then hidePlaceholders true rest
      else if character = '$' && rest.head?.any Text.isAsciiDigit then
        '?' :: hidePlaceholders true rest
      else character :: hidePlaceholders false rest

def convertSqlForError (sql : String) : String :=
  ((String.ofList (hidePlaceholders false sql.toList)).substituted "::jsonb" "").substituted
    "::INTERVAL" ""

inductive Dispatch
  | fetch
  | execute
  | refuse (queryPrefix : String)
  deriving DecidableEq, Repr

def dispatch (toUppercase : String → String) (sql : String) : Dispatch :=
  let trimmedUpper := (toUppercase sql.trimmed).toList
  let upperSql := toUppercase sql
  if "SELECT".toList.isPrefixOf trimmedUpper || "WITH".toList.isPrefixOf trimmedUpper then .fetch
  else if upperSql.mentions "RETURNING" && upperSql.mentions "INSERT" then .fetch
  else if upperSql.mentions "RETURNING" then
    .refuse (String.ofList ((convertSqlForError sql).toList.take 100))
  else .execute

structure QueryResult where
  rows : List Value
  rowCount : Nat
  deriving DecidableEq

structure Outcome where
  result : Except DbError QueryResult
  database : engine.Database

variable {engine} in
def Outcome.ofRun (database : engine.Database) (result : Applied engine.Database → QueryResult) :
    Except SqlxError (Applied engine.Database) → Outcome engine
  | .error error => ⟨.error (.queryFailed error), database⟩
  | .ok applied => ⟨.ok (result applied), applied.database⟩

variable (toUppercase : String → String)

def dispatchQuery (foreignKeys : Bool) (query : Query) (database : engine.Database) :
    Outcome engine :=
  match dispatch toUppercase query.sql with
  | .fetch =>
      .ofRun database (fun applied => ⟨applied.rows, applied.rows.length⟩)
        (engine.run foreignKeys query database)
  | .execute =>
      .ofRun database (fun applied => ⟨[], applied.rowsAffected⟩)
        (engine.run foreignKeys query database)
  | .refuse queryPrefix => ⟨.error (.returningNotSupportedOnMutation queryPrefix), database⟩

def Refused (query : Query) : Prop :=
  ∃ queryPrefix, dispatch toUppercase query.sql = .refuse queryPrefix

variable {engine}

theorem ofRun_enforced_iff (result : Applied engine.Database → QueryResult) (query : Query)
    (database : engine.Database) :
    Outcome.ofRun database result (engine.run true query database) =
        Outcome.ofRun database result (engine.run false query database) ↔
      engine.Spares query database := by
  rw [Engine.run, Engine.run, Engine.Spares]
  cases engine.apply query database with
  | error error => exact iff_of_true rfl nofun
  | ok applied =>
      simp only [Except.ok.injEq, forall_eq', if_true, Bool.false_eq_true, if_false]
      cases enforced : engine.enforce query database applied.database with
      | error error =>
          refine iff_of_false (fun same => ?_) nofun
          exact nomatch (Outcome.mk.inj same).1
      | ok settled =>
          rw [Except.ok.injEq]
          constructor
          · intro same
            exact (Outcome.mk.inj same).2
          · intro same
            subst same
            rfl

/-- The enforcement of foreign keys changes nothing about a query exactly if the query is
refused beforehand or spared. -/
theorem dispatchQuery_enforced_iff (query : Query) (database : engine.Database) :
    dispatchQuery engine toUppercase true query database =
        dispatchQuery engine toUppercase false query database ↔
      Refused toUppercase query ∨ engine.Spares query database := by
  rw [dispatchQuery, dispatchQuery, Refused]
  cases dispatch toUppercase query.sql with
  | fetch => simp [ofRun_enforced_iff]
  | execute => simp [ofRun_enforced_iff]
  | refuse queryPrefix => simp

/-! ## The pool -/

structure Pool where
  idle : List PoolConnection
  deriving DecidableEq, Repr

def Pool.acquire (pool : Pool) : Handout → Option (PoolConnection × List PoolConnection)
  | .idle index => pool.idle[index]?.map fun connection => (connection, pool.idle.eraseIdx index)
  | .connect => some (openOptions.connect, pool.idle)

/-- `open`: the first connection of the pool, and `PRAGMA foreign_keys = OFF` over a connection
of the pool. The statements of the schema leave the settings alone. -/
def opened (handout : Handout) : Option Pool :=
  ((Pool.mk [openOptions.connect]).acquire handout).map fun handed =>
    ⟨{ handed.1 with foreignKeys := false } :: handed.2⟩

variable (engine)

def PoolConnection.after (connection : PoolConnection) (query : Query) : PoolConnection :=
  match dispatch toUppercase query.sql with
  | .refuse _ => connection
  | .fetch | .execute =>
      { connection with
          foreignKeys := (engine.foreignKeysSet query.sql).getD connection.foreignKeys }

def Pool.query (pool : Pool) (database : engine.Database) (handout : Handout) (query : Query) :
    Option (Outcome engine × Pool) :=
  (pool.acquire handout).map fun handed =>
    (dispatchQuery engine toUppercase handed.1.foreignKeys query database,
      ⟨handed.1.after engine toUppercase query :: handed.2⟩)

/-- Queries one after the other, each over the connection it is handed. -/
def Pool.run (pool : Pool) (database : engine.Database) :
    List (Handout × Query) → Option (List (Outcome engine))
  | [] => some []
  | (handout, query) :: rest =>
      (pool.query engine toUppercase database handout query).bind fun (outcome, left) =>
        (left.run outcome.database rest).map (outcome :: ·)

def Gives (database : engine.Database) (queries : List Query)
    (outcomes : List (Outcome engine)) : Prop :=
  ∃ first pool calls, opened first = some pool ∧ calls.map Prod.snd = queries ∧
    pool.run engine toUppercase database calls = some outcomes

/-- What the queries give where foreign keys are not enforced. -/
def unenforced (database : engine.Database) : List Query → List (Outcome engine)
  | [] => []
  | query :: rest =>
      let outcome := dispatchQuery engine toUppercase false query database
      outcome :: unenforced outcome.database rest

/-- It does not matter which connections the queries are handed, and foreign keys are enforced
on none. -/
structure Independent (database : engine.Database) (queries : List Query) : Prop where
  same : ∀ left right, Gives engine toUppercase database queries left →
    Gives engine toUppercase database queries right → left = right
  plain : ∀ outcomes, Gives engine toUppercase database queries outcomes →
    outcomes = unenforced engine toUppercase database queries

def Indifferent (database : engine.Database) (query : Query) : Prop :=
  Refused toUppercase query ∨ engine.Spares query database

/-- The database after a query for which foreign keys are not enforced. -/
def plainStep (database : engine.Database) (query : Query) : engine.Database :=
  (dispatchQuery engine toUppercase false query database).database

variable {engine toUppercase}

theorem dispatchQuery_of_indifferent {query : Query}
    (indifferent : Indifferent engine toUppercase database query) (foreignKeys : Bool) :
    dispatchQuery engine toUppercase foreignKeys query database =
      dispatchQuery engine toUppercase false query database := by
  cases foreignKeys with
  | false => rfl
  | true => exact (dispatchQuery_enforced_iff toUppercase query database).mpr indifferent

theorem run_of_indifferent {pool : Pool} {database : engine.Database}
    {calls : List (Handout × Query)} {outcomes : List (Outcome engine)}
    (along : Along (plainStep engine toUppercase) (Indifferent engine toUppercase) database
      (calls.map Prod.snd))
    (ran : pool.run engine toUppercase database calls = some outcomes) :
    outcomes = unenforced engine toUppercase database (calls.map Prod.snd) := by
  induction calls generalizing pool database outcomes with
  | nil =>
      cases ran
      rfl
  | cons call rest induction =>
      rcases call with ⟨handout, query⟩
      rcases along with ⟨indifferent, others⟩
      rw [Pool.run, Pool.query] at ran
      cases acquired : pool.acquire handout with
      | none =>
          rw [acquired] at ran
          cases ran
      | some handed =>
          rw [acquired, Option.map_some, Option.bind_some] at ran
          rcases Option.map_eq_some_iff.mp ran with ⟨later, ranOn, rfl⟩
          rw [dispatchQuery_of_indifferent indifferent] at ranOn ⊢
          rw [induction others ranOn]
          rfl

theorem run_cons {pool : Pool} {handout : Handout} {connection : PoolConnection}
    {others : List PoolConnection} (acquired : pool.acquire handout = some (connection, others))
    (database : engine.Database) (query : Query) {calls : List (Handout × Query)}
    {outcomes : List (Outcome engine)}
    (ran : Pool.run engine toUppercase ⟨connection.after engine toUppercase query :: others⟩
      (dispatchQuery engine toUppercase connection.foreignKeys query database).database calls =
        some outcomes) :
    pool.run engine toUppercase database ((handout, query) :: calls) =
      some (dispatchQuery engine toUppercase connection.foreignKeys query database :: outcomes) := by
  rw [Pool.run, Pool.query, acquired, Option.map_some, Option.bind_some]
  dsimp only
  rw [ran, Option.map_some]

theorem exists_run (pool : Pool) (database : engine.Database) (queries : List Query) :
    ∃ calls outcomes, calls.map Prod.snd = queries ∧
      pool.run engine toUppercase database calls = some outcomes := by
  induction queries generalizing pool database with
  | nil => exact ⟨[], [], rfl, rfl⟩
  | cons query rest induction =>
      rcases induction ⟨openOptions.connect.after engine toUppercase query :: pool.idle⟩
        (dispatchQuery engine toUppercase openOptions.connect.foreignKeys query
          database).database with
        ⟨calls, outcomes, queried, ran⟩
      have overNew : pool.acquire .connect = some (openOptions.connect, pool.idle) := rfl
      exact ⟨_, _, by rw [List.map_cons, queried], run_cons overNew database query ran⟩

def Pool.Same (pool : Pool) (engine : Engine) (toUppercase : String → String)
    (database : engine.Database) (queries : List Query) : Prop :=
  ∀ calls others left right, calls.map Prod.snd = queries → others.map Prod.snd = queries →
    pool.run engine toUppercase database calls = some left →
    pool.run engine toUppercase database others = some right → left = right

theorem Pool.Same.along {pool : Pool} {index : Nat} {configured : PoolConnection}
    (idle : pool.idle[index]? = some configured) (unenforced : configured.foreignKeys = false)
    {database : engine.Database} {queries : List Query}
    (same : pool.Same engine toUppercase database queries) :
    Along (plainStep engine toUppercase) (Indifferent engine toUppercase) database queries := by
  induction queries generalizing pool database index with
  | nil => trivial
  | cons query rest induction =>
      have overConfigured : pool.acquire (.idle index) =
          some (configured, pool.idle.eraseIdx index) := by
        rw [Pool.acquire, idle, Option.map_some]
      have overNew : pool.acquire .connect = some (openOptions.connect, pool.idle) := rfl
      rcases exists_run
        ⟨configured.after engine toUppercase query :: pool.idle.eraseIdx index⟩
        (dispatchQuery engine toUppercase configured.foreignKeys query database).database rest with
        ⟨calls, outcomes, queried, ran⟩
      rcases exists_run ⟨openOptions.connect.after engine toUppercase query :: pool.idle⟩
        (dispatchQuery engine toUppercase openOptions.connect.foreignKeys query
          database).database rest with
        ⟨others, found, queriedNew, ranNew⟩
      have equal := same ((.idle index, query) :: calls) ((.connect, query) :: others) _ _
        (by rw [List.map_cons, queried]) (by rw [List.map_cons, queriedNew])
        (run_cons overConfigured database query ran) (run_cons overNew database query ranNew)
      have first := (List.cons.inj equal).1
      rw [unenforced] at first
      have indifferent : Indifferent engine toUppercase database query :=
        (dispatchQuery_enforced_iff toUppercase query database).mp first.symm
      refine ⟨indifferent, ?_⟩
      -- the query goes over a new connection, and the configured one stays
      apply @induction ⟨openOptions.connect.after engine toUppercase query :: pool.idle⟩ (index + 1)
      · exact idle
      · intro left right leftOutcomes rightOutcomes leftQueried rightQueried leftRan rightRan
        rw [plainStep, first] at leftRan rightRan
        have later := same ((.connect, query) :: left) ((.connect, query) :: right) _ _
          (by rw [List.map_cons, leftQueried]) (by rw [List.map_cons, rightQueried])
          (run_cons overNew database query leftRan) (run_cons overNew database query rightRan)
        exact (List.cons.inj later).2

section Notes

/-- Each note has a name and may refer to another one; a statement adds a note. -/
def notes : Engine where
  Database := List (String × Option String)
  apply query database :=
    match query.params with
    | [.string name, .string other] => .ok ⟨[], 1, database ++ [(name, some other)]⟩
    | [.string name, .null] => .ok ⟨[], 1, database ++ [(name, none)]⟩
    | _ => .error .database
  enforce _ _ database :=
    if database.all fun note => note.2.all fun other => database.any fun found => found.1 = other
    then .ok database
    else .error .database
  foreignKeysSet _ := none

def addNote : Query where
  sql := "INSERT INTO notes (name, other) VALUES ($1, $2)"
  params := [.string "reply", .string "question"]

def asciiUppercase (text : String) : String :=
  String.ofList (text.toList.map Char.toUpper)

theorem dispatch_addNote : dispatch asciiUppercase addNote.sql = .execute := by
  decide +kernel

end Notes

end Settings

end SqliteAdapter

end HarnessAgent
