import HarnessAgent.Foundation.OrderedSelection
import HarnessAgent.Foundation.SqlRows
import HarnessAgent.Store.ParameterTypes

/-! # Recent events

The events of a run that a reader lists: some event types of it, and no more than a
limit. The statement is put together with numbered parameters, and the database takes
the rows from the front of the ascending order.
-/

namespace HarnessAgent

open OrderedSelection Postgres SqlRows

structure StoredEvent extends EventRow where
  id : String
  deriving DecidableEq, Repr

abbrev StoredEvent.created (event : StoredEvent) : Instant :=
  event.toEventRow.createdAt

/-! ## The rows that are read -/

structure WorkflowEventRow where
  id : String
  workflowRunId : String
  eventType : String
  stepIndex : Option Nat
  stepName : Option String
  data : Value

/-- The columns of a row that are read, in the document of the adapter. -/
def StoredEvent.columns (dialect : Dialect) (serde : SerdeJson) (event : StoredEvent) : Members :=
  [("id", .string event.id), ("workflow_run_id", .string event.workflowRunId),
    ("event_type", .string event.eventType),
    ("step_index", (event.stepIndex.map fun index => Value.number (.posInt index)).getD .null),
    ("step_name", optionalString event.stepName), ("data", dialect.deliver serde event.data)]

namespace WorkflowEventRow

def readStepIndex (raw : Members) : Option Nat :=
  ((raw.get "step_index").bind Value.asU64).map (· % 2 ^ 32)

def ofColumns (raw : Members) : WorkflowEventRow :=
  let text (column : String) : Option String := (raw.get column).bind Value.asStr
  { id := (text "id").getD ""
    workflowRunId := (text "workflow_run_id").getD ""
    eventType := (text "event_type").getD ""
    stepIndex := readStepIndex raw
    stepName := text "step_name"
    data := (raw.get "data").getD (.object []) }

def parseEventRow (serde : SerdeJson) (row : WorkflowEventRow) : WorkflowEventRow :=
  match row.data with
  | .string text => { row with data := (serde.fromStr text).getD (.object []) }
  | _ => row

structure Reports (event : StoredEvent) (row : WorkflowEventRow) : Prop where
  id : row.id = event.id
  workflowRunId : row.workflowRunId = event.workflowRunId
  eventType : row.eventType = event.eventType
  stepName : row.stepName = event.stepName

end WorkflowEventRow

def StoredEvent.read (dialect : Dialect) (serde : SerdeJson) (event : StoredEvent) :
    WorkflowEventRow :=
  (WorkflowEventRow.ofColumns (event.columns dialect serde)).parseEventRow serde

namespace WorkflowEventRow

theorem Reports.parseEventRow (reports : Reports event row) (serde : SerdeJson) :
    Reports event (row.parseEventRow serde) := by
  rcases reports with ⟨id, run, type, name⟩
  rw [WorkflowEventRow.parseEventRow]
  split
  · exact ⟨id, run, type, name⟩
  · exact ⟨id, run, type, name⟩

theorem reports_read (dialect : Dialect) (serde : SerdeJson) (event : StoredEvent) :
    Reports event (event.read dialect serde) := by
  apply Reports.parseEventRow
  refine ⟨rfl, rfl, rfl, ?_⟩
  rcases event with ⟨⟨run, type, index, name, data, created⟩, id⟩
  cases name with
  | none => rfl
  | some name => rfl

theorem forall₂_reports_read (dialect : Dialect) (serde : SerdeJson)
    (events : List StoredEvent) :
    List.Forall₂ Reports events (events.map (StoredEvent.read dialect serde)) := by
  rw [List.forall₂_map_right_iff, List.forall₂_same]
  intro event _
  exact reports_read dialect serde event

end WorkflowEventRow

/-! ## The database -/

structure EventDatabase extends SqlDatabase where
  maxParameters : Nat

/-! ## The statement -/

namespace EventQuery

inductive Clause
  | runIs (placeholder : Nat)
  | typeIn (placeholders : List Nat)
  deriving DecidableEq, Repr

/-- `SELECT * FROM remote_agent_workflow_events WHERE ... ORDER BY created_at ASC LIMIT $n` -/
structure Query where
  clauses : List Clause
  limit : Nat
  params : List Value

def recentEvents (workflowRunId : String) (eventTypes : Option (List String)) (limit : UInt64) :
    Query :=
  let types := eventTypes.getD []
  let params := .string workflowRunId :: types.map .string
  { clauses := .runIs 1 ::
      (if types.isEmpty then [] else [.typeIn ((List.range types.length).map (· + 2))]),
    limit := params.length + 1,
    params := params ++ [wrapped limit.toNat] }

variable (database : EventDatabase)

def Clause.accepts (params : List Value) (event : StoredEvent) : Clause → Bool
  | .runIs placeholder =>
      match parameter params placeholder with
      | some (.string run) => database.textIs run event.workflowRunId
      | _ => false
  | .typeIn placeholders =>
      placeholders.any fun placeholder =>
        match parameter params placeholder with
        | some (.string eventType) => database.textIs eventType event.eventType
        | _ => false

def Query.accepts (query : Query) (event : StoredEvent) : Bool :=
  query.clauses.all fun clause => clause.accepts database query.params event

/-- The limit of a statement, if there is one. A negative limit is none for SQLite and an error
for Postgres. -/
def Query.rowLimit (query : Query) : Option (Option Nat) :=
  match parameter query.params query.limit with
  | some (.number (.posInt count)) => some (some count)
  | some (.number (.negInt _)) =>
      match database.dialect with
      | .sqlite => some none
      | .postgres => none
  | _ => none

def Query.Taken (query : Query) : Prop :=
  query.params.length ≤ database.maxParameters ∧
    ∀ text, Value.string text ∈ query.params → (database.comparedText text).isSome = true

def Query.Answers (query : Query) (table answer : List StoredEvent) : Prop :=
  query.Taken database ∧ ∃ limit, query.rowLimit database = some limit ∧
    Selects StoredEvent.created limit (table.filter (query.accepts database)) answer

/-! ## What the statement selects -/

section Selected

variable {database}
variable (run : String) (types : Option (List String)) (limit : UInt64)

theorem parameter_type (inRange : index < (types.getD []).length) :
    parameter (recentEvents run types limit).params (index + 2) =
      some (.string (types.getD [])[index]) := by
  have mapped : index < ((types.getD []).map Value.string).length := by
    rw [List.length_map]
    exact inRange
  rw [parameter, recentEvents]
  dsimp only
  rw [List.cons_append, List.getElem?_cons_succ, List.getElem?_append_left mapped,
    List.getElem?_map, List.getElem?_eq_getElem inRange]
  rfl

theorem parameter_limit :
    parameter (recentEvents run types limit).params (recentEvents run types limit).limit =
      some (wrapped limit.toNat) := by
  rw [recentEvents]
  dsimp only
  rw [parameter, List.getElem?_concat_length]

theorem typeIn_accepts (event : StoredEvent) :
    Clause.accepts database (recentEvents run types limit).params event
        (.typeIn ((List.range (types.getD []).length).map (· + 2))) =
      (types.getD []).any fun eventType => database.textIs eventType event.eventType := by
  rw [Clause.accepts, List.any_map, Bool.eq_iff_iff, List.any_eq_true, List.any_eq_true]
  constructor
  · intro found
    rcases found with ⟨index, member, same⟩
    have inRange := List.mem_range.mp member
    refine ⟨(types.getD [])[index], List.getElem_mem inRange, ?_⟩
    rwa [Function.comp_apply, parameter_type run types limit inRange] at same
  · intro found
    rcases found with ⟨eventType, member, same⟩
    rcases List.mem_iff_getElem.mp member with ⟨index, inRange, rfl⟩
    refine ⟨index, List.mem_range.mpr inRange, ?_⟩
    rwa [Function.comp_apply, parameter_type run types limit inRange]

end Selected

end EventQuery

namespace EventDatabase

variable (database : EventDatabase)

/-- The event is of the run and of one of the types; a filter without types is none. -/
def passes (run : String) (types : Option (List String)) (event : StoredEvent) : Bool :=
  database.textIs run event.workflowRunId &&
    ((types.getD []).isEmpty ||
      (types.getD []).any fun eventType => database.textIs eventType event.eventType)

def passing (run : String) (types : Option (List String)) (table : List StoredEvent) :
    List StoredEvent :=
  table.filter (database.passes run types)

variable (run : String)

theorem accepts_recentEvents (types : Option (List String)) (limit : UInt64)
    (event : StoredEvent) :
    (EventQuery.recentEvents run types limit).accepts database event =
      database.passes run types event := by
  have typed := @EventQuery.typeIn_accepts database run types limit event
  rw [EventQuery.Query.accepts, passes]
  generalize params : (EventQuery.recentEvents run types limit).params = listed at typed
  have first : EventQuery.Clause.accepts database listed event (.runIs 1) =
      database.textIs run event.workflowRunId := by
    rw [← params]
    rfl
  rw [EventQuery.recentEvents]
  dsimp only
  rw [List.all_cons, first]
  cases (types.getD []).isEmpty with
  | true => rfl
  | false =>
      rw [if_neg Bool.false_ne_true, List.all_cons, List.all_nil, Bool.and_true, typed,
        Bool.false_or]

theorem rowLimit_recentEvents (types : Option (List String)) (limit : UInt64) :
    (EventQuery.recentEvents run types limit).rowLimit database =
      if limit.toNat < 2 ^ 63 then some (some limit.toNat)
      else match database.dialect with
        | .sqlite => some none
        | .postgres => none := by
  have small : limit.toNat % 2 ^ 64 = limit.toNat := Nat.mod_eq_of_lt limit.toNat_lt
  rw [EventQuery.Query.rowLimit, EventQuery.parameter_limit, wrapped, small]
  split_ifs with fits
  · rfl
  · rfl

theorem isSome_comparedText (text : String) :
    (database.comparedText text).isSome = true ↔
      (database.dialect = .postgres → database.uuids.IsUuid text ∨ '\x00' ∉ text.toList) := by
  rw [SqlDatabase.comparedText]
  cases database.dialect with
  | sqlite => simp
  | postgres =>
      dsimp only
      rw [stringArgument]
      cases parsed : database.uuids.parse text with
      | some uuid =>
          have isUuid : database.uuids.IsUuid text := Option.isSome_iff_exists.mpr ⟨uuid, parsed⟩
          simp [StringArgument.storedText, isUuid]
      | none =>
          have noUuid : ¬database.uuids.IsUuid text := by
            rw [UuidLibrary.IsUuid, parsed]
            exact Bool.false_ne_true
          simp [StringArgument.storedText, noUuid]

theorem taken_recentEvents (types : Option (List String)) (limit : UInt64) :
    (EventQuery.recentEvents run types limit).Taken database ↔
      (types.getD []).length + 2 ≤ database.maxParameters ∧
        (database.comparedText run).isSome = true ∧
        ∀ eventType ∈ types.getD [], (database.comparedText eventType).isSome = true := by
  have length : (EventQuery.recentEvents run types limit).params.length =
      (types.getD []).length + 2 := by
    simp [EventQuery.recentEvents]
  have texts : ∀ text, Value.string text ∈ (EventQuery.recentEvents run types limit).params ↔
      text = run ∨ text ∈ types.getD [] := by
    intro text
    have limited : Value.string text ≠ wrapped limit.toNat := by
      rw [wrapped]
      split_ifs with fits
      · intro same
        cases same
      · intro same
        cases same
    simp [EventQuery.recentEvents, limited]
  rw [EventQuery.Query.Taken, length]
  apply and_congr_right
  intro _
  constructor
  · intro all
    exact ⟨all run ((texts run).mpr (.inl rfl)),
      fun eventType member => all eventType ((texts eventType).mpr (.inr member))⟩
  · intro all text member
    rcases (texts text).mp member with rfl | listed
    · exact all.1
    · exact all.2 text listed

/-! ## The listing -/

structure ListsRecent (serde : SerdeJson) (table : List StoredEvent) (run : String)
    (types : Option (List String)) (limit : UInt64) (events : List StoredEvent)
    (rows : List WorkflowEventRow) : Prop where
  typeChecks : database.dialect = .postgres →
    TypeChecks database.uuids (Operation.recentEvents run types limit.toNat)
  answers : (EventQuery.recentEvents run types limit).Answers database table events
  rows_eq : rows = events.map (StoredEvent.read database.dialect serde)

def ListsLatest (serde : SerdeJson) (table : List StoredEvent) (run : String)
    (types : Option (List String)) (limit : UInt64) : Prop :=
  (∃ events rows, database.ListsRecent serde table run types limit events rows) ∧
    ∀ events rows, database.ListsRecent serde table run types limit events rows →
      Latest StoredEvent.created limit.toNat (database.passing run types table) events ∧
        List.Forall₂ WorkflowEventRow.Reports events rows

structure Takes (run : String) (types : List String) : Prop where
  few : types.length + 2 ≤ database.maxParameters
  run : database.dialect = .postgres → database.uuids.IsUuid run
  types : database.dialect = .postgres →
    ∀ eventType ∈ types, ¬database.uuids.IsUuid eventType ∧ '\x00' ∉ eventType.toList

def LimitSpares (table : List StoredEvent) (run : String) (types : Option (List String))
    (limit : UInt64) : Prop :=
  let passing := database.passing run types table
  if limit.toNat < 2 ^ 63 then
    passing.length ≤ limit.toNat ∨ limit.toNat = 0 ∨ OneKey StoredEvent.created passing
  else database.dialect = .sqlite ∧ passing.length ≤ limit.toNat

theorem typeChecks_recentEvents (types : Option (List String)) (limit : Nat) :
    TypeChecks database.uuids (Operation.recentEvents run types limit) ↔
      database.uuids.IsUuid run ∧ ∀ eventType ∈ types.getD [], ¬database.uuids.IsUuid eventType := by
  have filtered : TypeChecks database.uuids
      ((types.getD []).map (compared WorkflowEventsTable.eventType)) ↔
      ∀ eventType ∈ types.getD [], ¬database.uuids.IsUuid eventType := by
    rw [TypeChecks, List.forall_mem_map]
    exact forall₂_congr fun eventType _ => fits_compared_textual eventType rfl
  rw [Operation.recentEvents, List.cons_append, typeChecks_cons, typeChecks_append, filtered,
    fits_compared_uuid _ rfl]
  apply and_congr_right
  intro _
  apply and_iff_left
  rw [TypeChecks, List.forall_mem_singleton]
  exact fits_limit limit

theorem takes_iff (types : Option (List String)) (limit : UInt64) :
    database.Takes run (types.getD []) ↔
      (database.dialect = .postgres →
        TypeChecks database.uuids (Operation.recentEvents run types limit.toNat)) ∧
        (EventQuery.recentEvents run types limit).Taken database := by
  rw [taken_recentEvents, typeChecks_recentEvents]
  simp only [isSome_comparedText]
  constructor
  · intro takes
    refine ⟨fun postgres => ⟨takes.run postgres, fun eventType member =>
      (takes.types postgres eventType member).1⟩, takes.few,
      fun postgres => .inl (takes.run postgres), ?_⟩
    intro eventType member postgres
    exact .inr (takes.types postgres eventType member).2
  · intro both
    rcases both with ⟨typed, few, -, texts⟩
    refine ⟨few, fun postgres => (typed postgres).1, ?_⟩
    intro postgres eventType member
    have noUuid := (typed postgres).2 eventType member
    exact ⟨noUuid, (texts eventType member postgres).resolve_left noUuid⟩

theorem listsRecent_iff (serde : SerdeJson) (table : List StoredEvent) (run : String)
    (types : Option (List String)) (limit : UInt64) (events : List StoredEvent)
    (rows : List WorkflowEventRow) :
    database.ListsRecent serde table run types limit events rows ↔
      database.Takes run (types.getD []) ∧
        (∃ count, (EventQuery.recentEvents run types limit).rowLimit database = some count ∧
          Selects StoredEvent.created count (database.passing run types table) events) ∧
        rows = events.map (StoredEvent.read database.dialect serde) := by
  have accepted : (EventQuery.recentEvents run types limit).accepts database =
      database.passes run types := by
    funext event
    exact database.accepts_recentEvents run types limit event
  constructor
  · intro lists
    rcases lists with ⟨typed, ⟨taken, selected⟩, rows⟩
    rw [accepted] at selected
    exact ⟨(database.takes_iff run types limit).mpr ⟨typed, taken⟩, selected, rows⟩
  · intro parts
    rcases parts with ⟨takes, selected, rows⟩
    rcases (database.takes_iff run types limit).mp takes with ⟨typed, taken⟩
    refine ⟨typed, ⟨taken, ?_⟩, rows⟩
    rw [accepted]
    exact selected

/-- The most recent events are listed exactly if the database takes the parameters and the limit
does not cut any of the events off that it can tell apart. -/
theorem listsLatest_iff (database : EventDatabase) (serde : SerdeJson)
    (table : List StoredEvent) (run : String) (types : Option (List String)) (limit : UInt64) :
    database.ListsLatest serde table run types limit ↔
      database.Takes run (types.getD []) ∧ database.LimitSpares table run types limit := by
  have rowLimit := database.rowLimit_recentEvents run types limit
  rw [ListsLatest, LimitSpares]
  simp only [listsRecent_iff]
  constructor
  · intro lists
    rcases lists with ⟨⟨events, rows, takes, ⟨count, counted, selects⟩, same⟩, all⟩
    have latest := (all events rows ⟨takes, ⟨count, counted, selects⟩, same⟩).1
    refine ⟨takes, ?_⟩
    rw [rowLimit] at counted
    split_ifs at counted ⊢ with fits
    · cases counted
      exact (latest_iff_of_limited selects).mp latest
    · cases dialect : database.dialect with
      | sqlite =>
          rw [dialect] at counted
          cases counted
          exact ⟨rfl, (latest_iff_of_unlimited selects).mp latest⟩
      | postgres =>
          rw [dialect] at counted
          cases counted
  · intro both
    rcases both with ⟨takes, spares⟩
    have limited : ∃ count, (EventQuery.recentEvents run types limit).rowLimit database =
        some count ∧ ∀ events, Selects StoredEvent.created count
          (database.passing run types table) events →
          Latest StoredEvent.created limit.toNat (database.passing run types table) events := by
      rw [rowLimit]
      split_ifs at spares ⊢ with fits
      · exact ⟨_, rfl, fun events selects => (latest_iff_of_limited selects).mpr spares⟩
      · rw [spares.1]
        exact ⟨_, rfl, fun events selects => (latest_iff_of_unlimited selects).mpr spares.2⟩
    rcases limited with ⟨count, counted, latest⟩
    constructor
    · rcases exists_selects StoredEvent.created count (database.passing run types table) with
        ⟨events, selects⟩
      exact ⟨events, _, takes, ⟨count, counted, selects⟩, rfl⟩
    · intro events rows lists
      rcases lists with ⟨-, ⟨other, found, selects⟩, rfl⟩
      rw [counted] at found
      cases found
      exact ⟨latest events selects,
        WorkflowEventRow.forall₂_reports_read database.dialect serde events⟩

/-! ## The older of two events -/

section Oldest

def startedEvent (id : String) (second : Int) : StoredEvent where
  workflowRunId := "run"
  eventType := "node_started"
  stepIndex := none
  stepName := none
  data := none
  id := id
  createdAt := second * microsPerSecond

def sqliteFile : EventDatabase where
  dialect := .sqlite
  uuids := uuidCrate
  maxParameters := 32766

theorem passing_startedEvents :
    sqliteFile.passing "run" none [startedEvent "first" 1, startedEvent "second" 2] =
      [startedEvent "first" 1, startedEvent "second" 2] := by
  decide

theorem recentEvents_lists_oldest :
    (∀ serde events rows, sqliteFile.ListsRecent serde
        [startedEvent "first" 1, startedEvent "second" 2] "run" none 1 events rows →
      events = [startedEvent "first" 1]) ∧
      ∀ serde, ¬sqliteFile.ListsLatest serde
        [startedEvent "first" 1, startedEvent "second" 2] "run" none 1 := by
  have limit : (EventQuery.recentEvents "run" none 1).rowLimit sqliteFile = some (some 1) :=
    sqliteFile.rowLimit_recentEvents "run" none 1
  have selected : ∀ serde events rows, sqliteFile.ListsRecent serde
      [startedEvent "first" 1, startedEvent "second" 2] "run" none 1 events rows →
      Selects StoredEvent.created (some 1)
        [startedEvent "first" 1, startedEvent "second" 2] events := by
    intro serde events rows lists
    rcases (sqliteFile.listsRecent_iff ..).mp lists with ⟨-, ⟨count, counted, selects⟩, -⟩
    rw [limit] at counted
    cases counted
    rwa [passing_startedEvents] at selects
  have apart : (startedEvent "first" 1).createdAt < (startedEvent "second" 2).createdAt := by
    decide
  constructor
  · intro serde events rows lists
    rcases selected serde events rows lists with ⟨ordered, same, ascending, rfl⟩
    have unique : ordered = [startedEvent "first" 1, startedEvent "second" 2] := by
      apply same.eq_of_pairwise (fun left right inOrdered inListed below above => ?_) ascending
      · exact List.pairwise_pair.mpr (le_of_lt apart)
      · have either := same.mem_iff.mp inOrdered
        simp only [List.mem_cons, List.not_mem_nil, or_false] at either inListed
        rcases either with rfl | rfl
        · rcases inListed with rfl | rfl
          · rfl
          · exact absurd above (not_le_of_gt apart)
        · rcases inListed with rfl | rfl
          · exact absurd below (not_le_of_gt apart)
          · rfl
    rw [unique]
    rfl
  · intro serde lists
    rcases lists with ⟨⟨events, rows, lists⟩, latest⟩
    have spares := (latest_iff_of_limited (selected serde events rows lists)).mp
      (passing_startedEvents ▸ (latest events rows lists).1)
    rcases spares with few | none | oneKey
    · exact absurd few (by decide)
    · exact absurd none (by decide)
    · exact ne_of_lt apart (oneKey _ (List.mem_cons_self) _
        (List.mem_cons_of_mem _ List.mem_cons_self))

end Oldest

end EventDatabase

end HarnessAgent
