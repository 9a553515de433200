import HarnessAgent.Foundation.CursorPolling
import HarnessAgent.Foundation.DateText
import HarnessAgent.Foundation.Lists
import HarnessAgent.Store.RecentEvents

/-! # Events since an instant

A reader catches up on the events of a run by asking for those from a time on. The time goes
to the database as a text, in a form that is chosen by a setting of the process and not by
the database, and SQLite compares it to the text that it has stored.
-/

namespace HarnessAgent

open CivilCalendar CursorPolling DateText EventRun OrderedSelection Postgres

/-! ## Instants as texts -/

structure UtcTime where
  seconds : Int
  nanos : Nat
  nanos_lt : nanos < 2000000000

namespace UtcTime

def isLeap (time : UtcTime) : Bool := decide (1000000000 ≤ time.nanos)

def second (time : UtcTime) : Int := time.seconds + time.isLeap.toInt

def instant (time : UtcTime) : Instant := time.seconds * microsPerSecond + (time.nanos / 1000 : Nat)

def ofInstant (instant : Instant) : UtcTime where
  seconds := instant / microsPerSecond
  nanos := (instant % microsPerSecond).toNat * 1000
  nanos_lt := by
    rw [microsPerSecond]
    omega

def shown (time : UtcTime) : DateTime := shownAt time.seconds time.isLeap

/-- The shortest of three, six and nine digits that is exact, and nothing for none. -/
def fraction (time : UtcTime) : List Char :=
  let nanos := time.nanos % 1000000000
  if nanos = 0 then []
  else if nanos % 1000000 = 0 then '.' :: DigitOrder.padded 3 (nanos / 1000000)
  else if nanos % 1000 = 0 then '.' :: DigitOrder.padded 6 (nanos / 1000)
  else '.' :: DigitOrder.padded 9 nanos

def toRfc3339 (time : UtcTime) : List Char :=
  stampText 'T' (time.fraction ++ "+00:00".toList) time.shown

/-- `%Y-%m-%d %H:%M:%S` -/
def formatSpaced (time : UtcTime) : List Char := stampText ' ' [] time.shown

end UtcTime

def getDatabaseType (databaseUrl : Option String) : Dialect :=
  match databaseUrl with
  | some url => if url.isEmpty then .sqlite else .postgres
  | none => .sqlite

def toDbDateParam (databaseUrl : Option String) (time : UtcTime) : List Char :=
  match getDatabaseType databaseUrl with
  | .sqlite => time.formatSpaced
  | .postgres => time.toRfc3339

/-! ## The rows of a database -/

namespace StoredEvent

def second (event : StoredEvent) : Int := event.createdAt / microsPerSecond

/-- The text of the time in SQLite, from `datetime('now')`. -/
def createdText (event : StoredEvent) : List Char := stampText ' ' [] (shownAt event.second false)

structure KeptBy (dialect : Dialect) (event : StoredEvent) : Prop where
  precise : dialect.timestamp event.createdAt = event.createdAt
  datable : dialect = .sqlite → HasFourDigits (yearAt event.second)

instance (dialect : Dialect) (event : StoredEvent) : Decidable (event.KeptBy dialect) :=
  decidable_of_iff (dialect.timestamp event.createdAt = event.createdAt ∧
      (dialect = .sqlite → HasFourDigits (yearAt event.second)))
    ⟨fun both => ⟨both.1, both.2⟩, fun kept => ⟨kept.precise, kept.datable⟩⟩

end StoredEvent

structure StoredEvents (dialect : Dialect) where
  rows : List StoredEvent
  kept : ∀ event ∈ rows, event.KeptBy dialect
  distinct : (rows.map StoredEvent.id).Nodup

namespace StoredEvents

variable {dialect : Dialect}

def insert (table : StoredEvents dialect) (event : StoredEvent) : StoredEvents dialect :=
  if insertable : event.KeptBy dialect ∧ event.id ∉ table.rows.map StoredEvent.id then
    { rows := table.rows ++ [event]
      kept := by
        intro own member
        rcases List.mem_append.mp member with old | new
        · exact table.kept own old
        · rw [List.mem_singleton.mp new]
          exact insertable.1
      distinct := by
        rw [List.map_append, List.map_singleton]
        exact List.nodup_append_comm.mp (List.nodup_cons.mpr ⟨insertable.2, table.distinct⟩) }
  else table

end StoredEvents

namespace EventDatabase

variable (database : EventDatabase)

def ofRun (run : String) (rows : List StoredEvent) : List StoredEvent :=
  rows.filter fun event => database.textIs run event.workflowRunId

/-! ## The statement -/

def sinceStatement (run cursor : String) : Statement :=
  [compared WorkflowEventsTable.workflowRunId run, compared WorkflowEventsTable.createdAt cursor]

/-- The events that the database may select, in the ascending order of their times, and the rows
that are returned. Postgres does not get as far as to compare a text to a time. -/
structure ListsSince (serde : SerdeJson) (databaseUrl : Option String)
    (table : StoredEvents database.dialect) (run : String) (since : UtcTime)
    (events : List StoredEvent) (rows : List WorkflowEventRow) : Prop where
  typeChecks : database.dialect = .postgres →
    TypeChecks database.uuids
      (sinceStatement run (String.ofList (toDbDateParam databaseUrl since)))
  taken : 2 ≤ database.maxParameters
  selects : database.dialect = .sqlite →
    Selects StoredEvent.created none
      ((database.ofRun run table.rows).filter fun event =>
        decide (¬event.createdText < toDbDateParam databaseUrl since))
      events
  rows_eq : rows = events.map (StoredEvent.read database.dialect serde)

/-! ## What is asked for -/

def dueSince (run : String) (since : UtcTime) (table : StoredEvents database.dialect) :
    List StoredEvent :=
  due StoredEvent.created (database.dialect.timestamp since.instant)
    (database.ofRun run table.rows)

/-- The call returns, and only ever the events that are asked for, the oldest first. -/
def ListsDue (serde : SerdeJson) (databaseUrl : Option String)
    (table : StoredEvents database.dialect) (run : String) (since : UtcTime) : Prop :=
  (∃ events rows, database.ListsSince serde databaseUrl table run since events rows) ∧
    ∀ events rows, database.ListsSince serde databaseUrl table run since events rows →
      events.Perm (database.dueSince run since table) ∧
        Ascending StoredEvent.created events ∧
        List.Forall₂ WorkflowEventRow.Reports events rows

/-! ## When the texts are ordered as the times -/

structure CursorFits (databaseUrl : Option String) (since : UtcTime) (event : StoredEvent) :
    Prop where
  datable : yearAt since.seconds ≤ 9999
  otherDay : getDatabaseType databaseUrl = .postgres →
    dayOf event.second = dayOf since.seconds → event.second < since.second

end EventDatabase

theorem yearAt_le (ordered : early ≤ late) : yearAt early ≤ yearAt late := by
  apply yearOf_le
  rw [dayOf, dayOf, secondsPerDay]
  omega

namespace EventDatabase

variable {event : StoredEvent} {since : UtcTime}

theorem not_lt_spaced_iff (sinceYear : HasFourDigits (yearAt since.seconds))
    (eventYear : HasFourDigits (yearAt event.second)) :
    ¬event.createdText < since.formatSpaced ↔ since.second ≤ event.second := by
  rw [StoredEvent.createdText, UtcTime.formatSpaced, UtcTime.shown,
    stampText_lt_iff since.isLeap eventYear sinceYear, ← UtcTime.second, not_lt]

theorem not_lt_rfc3339_iff (sinceYear : HasFourDigits (yearAt since.seconds))
    (eventYear : HasFourDigits (yearAt event.second)) :
    ¬event.createdText < since.toRfc3339 ↔ dayOf since.seconds < dayOf event.second := by
  rw [StoredEvent.createdText, UtcTime.toRfc3339, UtcTime.shown,
    stampText_lt_iff_day false since.isLeap eventYear sinceYear (by decide), not_le]

theorem not_lt_of_signed (databaseUrl : Option String)
    (sinceYear : ¬HasFourDigits (yearAt since.seconds))
    (eventYear : HasFourDigits (yearAt event.second)) :
    ¬event.createdText < toDbDateParam databaseUrl since := by
  apply List.lt_asymm
  rw [toDbDateParam]
  cases getDatabaseType databaseUrl with
  | sqlite => exact stampText_lt_of_signed sinceYear eventYear _ _ _ _
  | postgres => exact stampText_lt_of_signed sinceYear eventYear _ _ _ _

theorem selected_iff_due {databaseUrl : Option String}
    (eventYear : HasFourDigits (yearAt event.second)) :
    (¬event.createdText < toDbDateParam databaseUrl since ↔ since.second ≤ event.second) ↔
      CursorFits databaseUrl since event := by
  have leap := leap_range since.isLeap
  by_cases sinceYear : HasFourDigits (yearAt since.seconds)
  · rw [toDbDateParam]
    cases type : getDatabaseType databaseUrl with
    | sqlite =>
        refine iff_of_true (not_lt_spaced_iff sinceYear eventYear) ⟨sinceYear.2, ?_⟩
        intro postgres
        rw [type] at postgres
        cases postgres
    | postgres =>
        dsimp only
        rw [not_lt_rfc3339_iff sinceYear eventYear]
        constructor
        · intro same
          refine ⟨sinceYear.2, fun _ sameDay => ?_⟩
          by_contra notEarlier
          have later := same.mpr (le_of_not_gt notEarlier)
          omega
        · intro fits
          constructor
          · intro later
            rw [UtcTime.second]
            rw [dayOf, dayOf, secondsPerDay] at later
            omega
          · intro reached
            by_contra notLater
            have sameDay : dayOf event.second = dayOf since.seconds := by
              rw [UtcTime.second] at reached
              rw [dayOf, dayOf, secondsPerDay] at notLater ⊢
              omega
            have earlier := fits.otherDay type sameDay
            omega
  · rw [iff_true_left (not_lt_of_signed databaseUrl sinceYear eventYear)]
    have before : since.second ≤ event.second ↔ yearAt since.seconds ≤ 9999 := by
      constructor
      · intro reached
        have ordered : since.seconds ≤ event.second := by
          rw [UtcTime.second] at reached
          omega
        exact (yearAt_le ordered).trans eventYear.2
      · intro small
        by_contra later
        apply sinceYear
        refine ⟨?_, small⟩
        have ordered : event.second ≤ since.seconds := by
          rw [UtcTime.second] at later
          omega
        exact eventYear.1.trans (yearAt_le ordered)
    rw [before]
    constructor
    · intro small
      refine ⟨small, fun _ sameDay => ?_⟩
      exfalso
      apply sinceYear
      rw [yearAt, ← sameDay]
      exact eventYear
    · exact CursorFits.datable

/-! ## One call -/

variable (database : EventDatabase)

structure TakesCursor (databaseUrl : Option String) (table : StoredEvents database.dialect)
    (run : String) (since : UtcTime) : Prop where
  sqlite : database.dialect = .sqlite
  taken : 2 ≤ database.maxParameters
  fits : ∀ event ∈ database.ofRun run table.rows, CursorFits databaseUrl since event

theorem not_typeChecks_since (run cursor : String) :
    ¬TypeChecks database.uuids (sinceStatement run cursor) := by
  intro checks
  exact not_fits_compared_timestamptz _ rfl
    (checks _ (List.mem_cons_of_mem _ (List.mem_cons_self)))

variable {database}

theorem ListsSince.sqlite {serde : SerdeJson} {table : StoredEvents database.dialect} {run : String}
    {since : UtcTime} {rows : List WorkflowEventRow}
    (lists : database.ListsSince serde databaseUrl table run since events rows) :
    database.dialect = .sqlite := by
  cases dialect : database.dialect with
  | sqlite => rfl
  | postgres => exact absurd (lists.typeChecks dialect) (database.not_typeChecks_since _ _)

theorem timestamp_instant (since : UtcTime) :
    Dialect.sqlite.timestamp since.instant = since.second * microsPerSecond := by
  have small := since.nanos_lt
  have inside : since.instant / microsPerSecond = since.second := by
    rw [UtcTime.instant, UtcTime.second, UtcTime.isLeap, microsPerSecond]
    change (since.seconds * 1000000 + (since.nanos / 1000 : Nat) : Int) / 1000000 = _
    by_cases leap : 1000000000 ≤ since.nanos
    · rw [decide_eq_true leap, Bool.toInt_true]
      omega
    · rw [decide_eq_false leap, Bool.toInt_false]
      omega
  rw [Dialect.timestamp, wholeSecond, inside]

theorem due_iff (kept : event.KeptBy .sqlite) (since : UtcTime) :
    Dialect.sqlite.timestamp since.instant ≤ event.createdAt ↔ since.second ≤ event.second := by
  have precise : event.second * microsPerSecond = event.createdAt := kept.precise
  rw [timestamp_instant, ← precise]
  apply mul_le_mul_iff_left₀
  decide

theorem listsDue_iff (database : EventDatabase) (serde : SerdeJson)
    (databaseUrl : Option String) (table : StoredEvents database.dialect) (run : String)
    (since : UtcTime) :
    database.ListsDue serde databaseUrl table run since ↔
      database.TakesCursor databaseUrl table run since := by
  have compared (sqlite : database.dialect = .sqlite) :
      ((database.ofRun run table.rows).filter fun event =>
          decide (¬event.createdText < toDbDateParam databaseUrl since)).Perm
        (database.dueSince run since table) ↔
        ∀ event ∈ database.ofRun run table.rows, CursorFits databaseUrl since event := by
    rw [dueSince, due, filter_perm_iff]
    apply forall₂_congr
    intro event member
    have kept := table.kept event (List.mem_filter.mp member).1
    rw [sqlite] at kept ⊢
    rw [decide_eq_true_eq, decide_eq_true_eq, due_iff kept, selected_iff_due (kept.datable rfl)]
  constructor
  · intro listed
    rcases listed with ⟨⟨events, rows, lists⟩, all⟩
    have sqlite := lists.sqlite
    refine ⟨sqlite, lists.taken, (compared sqlite).mp ?_⟩
    exact (lists.selects sqlite).perm.symm.trans (all events rows lists).1
  · intro takes
    constructor
    · rcases exists_selects StoredEvent.created none ((database.ofRun run table.rows).filter
        fun event => decide (¬event.createdText < toDbDateParam databaseUrl since)) with
        ⟨events, selects⟩
      refine ⟨events, _, fun postgres => ?_, takes.taken, fun _ => selects, rfl⟩
      rw [takes.sqlite] at postgres
      cases postgres
    · intro events rows lists
      have selects := lists.selects takes.sqlite
      refine ⟨selects.perm.trans ((compared takes.sqlite).mpr takes.fits), selects.ascending, ?_⟩
      rw [lists.rows_eq]
      exact WorkflowEventRow.forall₂_reports_read database.dialect serde events

end EventDatabase

/-! ## Polling -/

structure Poller (dialect : Dialect) where
  table : StoredEvents dialect
  since : UtcTime
  delivered : List StoredEvent

inductive PollEvent
  | created (event : StoredEvent)
  | polled (databaseUrl : Option String) (answer : List StoredEvent)

namespace Poller

variable {dialect : Dialect}

def start (table : StoredEvents dialect) (since : UtcTime) : Poller dialect where
  table := table
  since := since
  delivered := []

/-- Events are told apart by their identifiers, and the next poll asks for those from the time of
the last event on. -/
def step (poller : Poller dialect) : PollEvent → Poller dialect
  | .created event => { poller with table := poller.table.insert event }
  | .polled _ answer =>
      { poller with
        since := (answer.getLast?.map fun event => UtcTime.ofInstant event.createdAt).getD
          poller.since
        delivered := receive StoredEvent.id poller.delivered answer }

end Poller

namespace EventDatabase

variable (database : EventDatabase) (serde : SerdeJson) (run : String) (initial : UtcTime)

/-- No event of the run is created before the time from which the reader asks, and the text of
that time fits whenever it asks. -/
def Keeps (poller : Poller database.dialect) : PollEvent → Prop
  | .created event =>
      event ∈ database.dueSince run initial (poller.table.insert event) →
        database.dialect.timestamp poller.since.instant ≤ event.createdAt
  | .polled databaseUrl answer =>
      (∃ rows, database.ListsSince serde databaseUrl poller.table run poller.since answer rows) ∧
        database.TakesCursor databaseUrl poller.table run poller.since

def LosesNone (poller : Poller database.dialect) : Prop :=
  Delivering StoredEvent.id StoredEvent.created (database.dialect.timestamp initial.instant)
    (database.ofRun run poller.table.rows) (database.dialect.timestamp poller.since.instant)
    poller.delivered

variable {database serde run initial}

theorem ofRun_insert (table : StoredEvents database.dialect) (event : StoredEvent) :
    database.ofRun run (table.insert event).rows = database.ofRun run table.rows ∨
      (table.insert event).rows = table.rows ++ [event] ∧
        database.ofRun run (table.insert event).rows = database.ofRun run table.rows ++ [event] ∧
        event.id ∉ table.rows.map StoredEvent.id := by
  rw [StoredEvents.insert]
  split
  · next insertable =>
      dsimp only
      rw [ofRun, ofRun, List.filter_append]
      cases ofRun : database.textIs run event.workflowRunId with
      | true => exact .inr ⟨rfl, by rw [List.filter_singleton, ofRun]; rfl, insertable.2⟩
      | false =>
          left
          rw [List.filter_singleton, ofRun, cond_false, List.append_nil]
  · exact .inl rfl

theorem losesNone_start (table : StoredEvents database.dialect) :
    database.LosesNone run initial (Poller.start table initial) :=
  delivering_initial (table.distinct.sublist (List.filter_sublist.map _))

theorem LosesNone.created {poller : Poller database.dialect} {event : StoredEvent}
    (losesNone : database.LosesNone run initial poller)
    (keeps : database.Keeps serde run initial poller (.created event)) :
    database.LosesNone run initial (poller.step (.created event)) := by
  rw [LosesNone, Poller.step]
  dsimp only
  rcases ofRun_insert poller.table event with same | ⟨-, more, fresh⟩
  · rw [same]
    exact losesNone
  · rw [more]
    apply Delivering.added losesNone
    · intro known
      rcases List.mem_map.mp known with ⟨other, member, same⟩
      exact fresh (same ▸ List.mem_map_of_mem (List.mem_filter.mp member).1)
    · intro asked
      apply keeps
      rw [dueSince, mem_due, more]
      exact ⟨List.mem_append_right _ (List.mem_singleton_self event), asked⟩

theorem timestamp_ofInstant {event : StoredEvent} (kept : event.KeptBy .sqlite) :
    Dialect.sqlite.timestamp (UtcTime.ofInstant event.createdAt).instant = event.createdAt := by
  have precise : event.second * microsPerSecond = event.createdAt := kept.precise
  have whole : (UtcTime.ofInstant event.createdAt).second = event.second := by
    have none : event.createdAt % microsPerSecond = 0 := by
      rw [← precise]
      exact Int.mul_emod_left _ _
    have zero : (UtcTime.ofInstant event.createdAt).nanos = 0 := by
      change (event.createdAt % microsPerSecond).toNat * 1000 = 0
      rw [none, Int.toNat_zero, Nat.zero_mul]
    have small : ¬1000000000 ≤ (UtcTime.ofInstant event.createdAt).nanos := by
      rw [zero]
      decide
    rw [UtcTime.second, UtcTime.isLeap, decide_eq_false small, Bool.toInt_false, add_zero]
    rfl
  rw [timestamp_instant, whole, precise]

variable {poller : Poller database.dialect}

theorem perm_due (keeps : database.Keeps serde run initial poller (.polled databaseUrl answer)) :
    answer.Perm (database.dueSince run poller.since poller.table) := by
  rcases keeps with ⟨⟨rows, lists⟩, takes⟩
  exact (((database.listsDue_iff serde _ _ _ _).mpr takes).2 answer rows lists).1

theorem LosesNone.polled (losesNone : database.LosesNone run initial poller)
    (keeps : database.Keeps serde run initial poller (.polled databaseUrl answer)) :
    database.LosesNone run initial (poller.step (.polled databaseUrl answer)) := by
  have delivering := Delivering.polled losesNone (perm_due keeps)
  have cursor : database.dialect.timestamp
      (poller.step (.polled databaseUrl answer)).since.instant =
      advance StoredEvent.created (database.dialect.timestamp poller.since.instant) answer := by
    rw [Poller.step, advance]
    cases last : answer.getLast? with
    | none => rfl
    | some event =>
        have member := (perm_due keeps).mem_iff.mp (List.mem_of_getLast? last)
        have kept := poller.table.kept event (List.mem_filter.mp (mem_due.mp member).1).1
        change database.dialect.timestamp (UtcTime.ofInstant event.createdAt).instant =
          event.createdAt
        rw [keeps.2.sqlite] at kept ⊢
        exact timestamp_ofInstant kept
  rw [LosesNone, cursor]
  exact delivering

theorem LosesNone.step {event : PollEvent} (losesNone : database.LosesNone run initial poller)
    (keeps : database.Keeps serde run initial poller event) :
    database.LosesNone run initial (poller.step event) := by
  cases event with
  | created event => exact losesNone.created keeps
  | polled databaseUrl answer => exact losesNone.polled keeps

/-- A call lists what is asked for exactly if the database takes the cursor. As long as it does, and
no event comes behind the reader, every poll completes the events that are due, each once. -/
theorem listsDue_iff_and_delivers (database : EventDatabase) (serde : SerdeJson) (run : String) :
    (∀ databaseUrl table since, database.ListsDue serde databaseUrl table run since ↔
      database.TakesCursor databaseUrl table run since) ∧
      ∀ (table : StoredEvents database.dialect) (initial : UtcTime) (events : List PollEvent),
        Along Poller.step (database.Keeps serde run initial) (Poller.start table initial) events →
          Throughout Poller.step (database.LosesNone run initial) (Poller.start table initial)
            events ∧
          ∀ earlier databaseUrl answer later,
            events = earlier ++ .polled databaseUrl answer :: later →
            let after := EventRun.run Poller.step (Poller.start table initial)
              (earlier ++ [.polled databaseUrl answer])
            after.delivered.Perm (database.dueSince run initial after.table) := by
  constructor
  · intro databaseUrl table since
    exact database.listsDue_iff serde databaseUrl table run since
  · intro table initial events along
    have throughout := throughout_of_along LosesNone.step (losesNone_start table) along
    refine ⟨throughout, ?_⟩
    intro earlier databaseUrl answer later split
    have before := throughout earlier _ split
    rw [split] at along
    have keeps := (along_append.mp along).2.1
    rw [run_append_singleton]
    exact Delivering.perm_receive before (perm_due keeps)

/-! ## An event of the same day -/

section SameDay

def midnight : UtcTime where
  seconds := 0
  nanos := 0
  nanos_lt := by decide

def firstHour : StoredEvents sqliteFile.dialect where
  rows := [startedEvent "first" 3600]
  kept := by
    intro event member
    rw [List.mem_singleton.mp member]
    decide
  distinct := List.nodup_singleton _

theorem fourDigits_firstHour : HasFourDigits (yearAt (startedEvent "first" 3600).second) := by
  decide

theorem ofRun_firstHour :
    sqliteFile.ofRun "run" [startedEvent "first" 3600] = [startedEvent "first" 3600] := by
  decide

theorem due_firstHour :
    startedEvent "first" 3600 ∈ sqliteFile.dueSince "run" midnight firstHour := by
  rw [dueSince, mem_due, firstHour, ofRun_firstHour]
  refine ⟨List.mem_singleton_self _, ?_⟩
  decide

theorem misses_sameDay :
    (∀ serde events rows, sqliteFile.ListsSince serde (some "postgres://localhost/har") firstHour
        "run" midnight events rows → events = []) ∧
      ∀ serde, ¬sqliteFile.ListsDue serde (some "postgres://localhost/har") firstHour "run"
        midnight := by
  have missed : ∀ serde events rows, sqliteFile.ListsSince serde
      (some "postgres://localhost/har") firstHour "run" midnight events rows → events = [] := by
    intro serde events rows lists
    have same := (lists.selects rfl).perm
    rw [firstHour, ofRun_firstHour, List.filter_eq_nil_iff.mpr] at same
    · exact same.eq_nil
    · intro event member selected
      rw [List.mem_singleton.mp member, decide_eq_true_eq] at selected
      have later := (not_lt_rfc3339_iff (by decide) fourDigits_firstHour).mp selected
      exact absurd later (by decide)
  refine ⟨missed, ?_⟩
  intro serde lists
  rcases lists with ⟨⟨events, rows, lists⟩, all⟩
  have found := (all events rows lists).1.mem_iff.mpr due_firstHour
  rw [missed serde events rows lists] at found
  cases found

theorem polls_one_event :
    Along Poller.step (sqliteFile.Keeps oneCompletionSerde "run" midnight)
        (Poller.start firstHour midnight) [.polled none [startedEvent "first" 3600]] ∧
      (EventRun.run Poller.step (Poller.start firstHour midnight)
        [.polled none [startedEvent "first" 3600]]).delivered.Perm
          (sqliteFile.dueSince "run" midnight firstHour) := by
  have fits : CursorFits none midnight (startedEvent "first" 3600) :=
    ⟨by decide, fun other => nomatch other⟩
  have selected : ¬(startedEvent "first" 3600).createdText < toDbDateParam none midnight :=
    (selected_iff_due fourDigits_firstHour).mpr fits |>.mpr (by decide)
  have along : Along Poller.step (sqliteFile.Keeps oneCompletionSerde "run" midnight)
      (Poller.start firstHour midnight) [.polled none [startedEvent "first" 3600]] := by
    refine ⟨⟨⟨_, (fun postgres => nomatch postgres), by decide, fun _ => ?_, rfl⟩,
      rfl, by decide, ?_⟩, trivial⟩
    · refine ⟨[startedEvent "first" 3600], ?_, List.pairwise_singleton _ _, rfl⟩
      rw [Poller.start, firstHour, ofRun_firstHour, List.filter_singleton,
        decide_eq_true selected]
      exact List.Perm.refl _
    · intro event member
      rw [Poller.start, firstHour, ofRun_firstHour] at member
      rw [List.mem_singleton.mp member]
      exact fits
  exact ⟨along, ((listsDue_iff_and_delivers sqliteFile oneCompletionSerde "run").2 firstHour
    midnight _ along).2 [] none _ [] rfl⟩

end SameDay

end EventDatabase

end HarnessAgent
