import HarnessAgent.Store.WorkflowRuns
import Mathlib.Logic.Function.Basic

/-! # Clients that resume one run

A resume is an update followed by a read. The calls of any number of clients are
interleaved, statement by statement, with each other, with the heartbeats of the run
and with whatever else is done to the table.
-/

namespace HarnessAgent

namespace SqlWorkflowStore

def activityUpdate (dialect : Dialect) (clock : Instant) (id : String) : RowUpdate RunRow.id where
  guard row := row.id = id
  set row := { row with lastActivityAt := some (dialect.now clock) }
  keepsKey _ := rfl

def updateWorkflowActivity (dialect : Dialect) (call : DbCall) (table : RunTable) (id : String) :
    RunTable × Except StoreError Unit :=
  let outcome := query call table (activityUpdate dialect call.clock id)
  (outcome.1, (reportCount "" outcome.2).map fun _ => ())

end SqlWorkflowStore

namespace ResumeRace

inductive Event (Call : Type)
  | update (call : Call) (db : DbCall)
  | read (call : Call) (db : DbCall)
  | heartbeat (db : DbCall)
  | other (request : RunRequest Call)

def Event.call? {Call : Type} : Event Call → Option Call
  | .update call _ => some call
  | .read call _ => some call
  | .heartbeat _ => none
  | .other _ => none

structure State (Call : Type) where
  table : RunTable
  outcomes : Call → Option (Except StoreError Nat) := fun _ => none
  results : Call → Option (Except StoreError WorkflowRun) := fun _ => none

section

variable {Call : Type} [DecidableEq Call] (dialect : Dialect) (id : String)

open SqlWorkflowStore in
def step (state : State Call) : Event Call → State Call
  | .update call db =>
      match state.outcomes call with
      | some _ => state
      | none =>
          let outcome := resumeWorkflowRun dialect db state.table id
          { state with
            table := outcome.1
            outcomes := Function.update state.outcomes call (some outcome.2) }
  | .read call db =>
      match state.outcomes call, state.results call with
      | some outcome, none =>
          { state with
            results := Function.update state.results call
              (some (resumeWorkflowRunRead db state.table id outcome)) }
      | _, _ => state
  | .heartbeat db => { state with table := (updateWorkflowActivity dialect db state.table id).1 }
  | .other request => { state with table := RunHistory.step dialect state.table request }

def run (state : State Call) (events : List (Event Call)) : State Call :=
  events.foldl (step dialect id) state

def Won (state : State Call) (call : Call) : Prop :=
  ∃ count, state.outcomes call = some (.ok (count + 1))

def FreshAt (dialect : Dialect) (clock : Instant) (row : RunRow) : Prop :=
  ∃ activity, row.lastActivityAt = some activity ∧
    ¬activity < dialect.nowMinusDays clock SqlWorkflowStore.orphanResumeStaleDays

/-- Whenever a call makes its update after the run was resumed by another one, the run
is running and its activity is fresh. -/
def StaysFresh (dialect : Dialect) (id : String) : State Call → List (Event Call) → Prop
  | _, [] => True
  | state, event :: rest =>
      (∀ call db, event = .update call db → (∃ other, Won state other) →
        ∀ row, state.table.find id = some row →
          row.status = .running ∧ FreshAt dialect db.clock row) ∧
      StaysFresh dialect id (step dialect id state event) rest

end

/-! ## One statement -/

section

variable {dialect : Dialect} {id : String} {table : RunTable}

theorem update_eq_self_of_affected_eq_zero (none : table.affected update = 0) :
    table.update update = table := by
  have same : table.rows.map update.apply = table.rows := by
    have each : ∀ row ∈ table.rows, update.apply row = id row := by
      intro row member
      rw [RowUpdate.apply, if_neg (List.countP_eq_zero.mp none row member), id]
    rw [List.map_congr_left each, List.map_id]
  rcases table with ⟨rows, distinct⟩
  rw [Table.update, Table.mk.injEq]
  exact same

theorem resumeWorkflowRun_unchanged
    (lost : ∀ count, (SqlWorkflowStore.resumeWorkflowRun dialect db table id).2 ≠ .ok (count + 1)) :
    (SqlWorkflowStore.resumeWorkflowRun dialect db table id).1 = table := by
  rw [SqlWorkflowStore.resumeWorkflowRun, SqlWorkflowStore.query] at lost ⊢
  cases failure : db.failure with
  | some error => rfl
  | none =>
      simp only [failure, SqlWorkflowStore.reportCount] at lost ⊢
      apply update_eq_self_of_affected_eq_zero
      cases affected : table.affected (SqlWorkflowStore.resumeUpdate dialect db.clock id) with
      | zero => rfl
      | succ count => exact absurd (congrArg Except.ok affected) (lost count)

theorem resumeWorkflowRun_of_fresh
    (fresh : ∀ row, table.find id = some row → row.status = .running ∧ FreshAt dialect db.clock row)
    (count : Nat) :
    (SqlWorkflowStore.resumeWorkflowRun dialect db table id).2 ≠ .ok (count + 1) := by
  have unmatched : table.affected (SqlWorkflowStore.resumeUpdate dialect db.clock id) = 0 := by
    apply List.countP_eq_zero.mpr
    intro row member
    by_cases same : row.id = id
    · rcases fresh row (Table.find_eq_some.mpr ⟨member, same⟩) with
        ⟨running, activity, recorded, recent⟩
      simp [SqlWorkflowStore.resumeUpdate, SqlWorkflowStore.resumableStatusClause, running,
        recorded, Int.not_lt.mp recent]
    · simp [SqlWorkflowStore.resumeUpdate, same]
  rw [SqlWorkflowStore.resumeWorkflowRun, SqlWorkflowStore.query]
  cases db.failure with
  | some error => simp [SqlWorkflowStore.reportCount]
  | none => simp [SqlWorkflowStore.reportCount, unmatched]

theorem resumeWorkflowRunRead_eq_ok
    (answered : SqlWorkflowStore.resumeWorkflowRunRead db table id outcome = .ok workflowRun) :
    ∃ count, outcome = .ok (count + 1) := by
  cases outcome with
  | error error => cases answered
  | ok count =>
      cases count with
      | zero =>
          simp only [SqlWorkflowStore.resumeWorkflowRunRead, SqlWorkflowStore.resumeCasMissProbe]
            at answered
          split at answered
          · cases answered
          · split at answered
            · cases answered
            · cases answered
      | succ count => exact ⟨count, rfl⟩

end

/-! ## Every interleaving -/

section

variable {Call : Type} [DecidableEq Call] {dialect : Dialect} {id : String}

structure Exclusive (state : State Call) : Prop where
  unique : ∀ first second, Won state first → Won state second → first = second
  returns : ∀ call workflowRun, state.results call = some (.ok workflowRun) → Won state call

variable {state : State Call}

theorem won_step (event : Event Call) (won : Won state call) :
    Won (step dialect id state event) call := by
  rcases won with ⟨count, won⟩
  refine ⟨count, ?_⟩
  cases event with
  | update other db =>
      rw [step]
      split
      · exact won
      next fresh =>
        have different : call ≠ other := by
          intro same
          rw [same, fresh] at won
          cases won
        exact (Function.update_of_ne different _ _).trans won
  | read other db =>
      rw [step]
      split
      · exact won
      · exact won
  | heartbeat db => exact won
  | other request => exact won

theorem won_run (events : List (Event Call)) (won : Won state call) :
    Won (run dialect id state events) call := by
  induction events generalizing state with
  | nil => exact won
  | cons event rest induction => exact induction (won_step event won)

theorem Exclusive.step (exclusive : Exclusive state) (event : Event Call)
    (fresh : ∀ call db, event = .update call db → (∃ other, Won state other) →
      ∀ row, state.table.find id = some row →
        row.status = .running ∧ FreshAt dialect db.clock row) :
    Exclusive (step dialect id state event) := by
  cases event with
  | update call db =>
      rw [ResumeRace.step]
      split
      · exact exclusive
      next unmade =>
        -- Only this call can be new among those that have matched.
        have before : ∀ other, Won { state with
            table := (SqlWorkflowStore.resumeWorkflowRun dialect db state.table id).1
            outcomes := Function.update state.outcomes call
              (some (SqlWorkflowStore.resumeWorkflowRun dialect db state.table id).2) } other →
            other ≠ call → Won state other := by
          intro other won different
          rcases won with ⟨count, won⟩
          exact ⟨count, (Function.update_of_ne different _ _).symm.trans won⟩
        have first : ∀ other, Won { state with
            table := (SqlWorkflowStore.resumeWorkflowRun dialect db state.table id).1
            outcomes := Function.update state.outcomes call
              (some (SqlWorkflowStore.resumeWorkflowRun dialect db state.table id).2) } call →
            ¬Won state other := by
          intro other won already
          rcases won with ⟨count, won⟩
          have answer := Option.some.inj ((Function.update_self call _ _).symm.trans won)
          exact resumeWorkflowRun_of_fresh (fresh call db rfl ⟨other, already⟩) count answer
        refine ⟨?_, ?_⟩
        · intro left right leftWon rightWon
          by_cases leftSame : left = call
          · subst leftSame
            by_cases rightSame : right = left
            · exact rightSame.symm
            · exact absurd (before right rightWon rightSame) (first right leftWon)
          · by_cases rightSame : right = call
            · subst rightSame
              exact absurd (before left leftWon leftSame) (first left rightWon)
            · exact exclusive.unique left right (before left leftWon leftSame)
                (before right rightWon rightSame)
        · intro other workflowRun returned
          rcases exclusive.returns other workflowRun returned with ⟨count, won⟩
          have different : other ≠ call := by
            intro same
            rw [same, unmade] at won
            cases won
          exact ⟨count, (Function.update_of_ne different _ _).trans won⟩
  | read call db =>
      rw [ResumeRace.step]
      split
      next outcome made unreturned =>
        refine ⟨exclusive.unique, ?_⟩
        intro other workflowRun returned
        by_cases same : other = call
        · subst same
          have answer := Option.some.inj ((Function.update_self other _ _).symm.trans returned)
          rcases resumeWorkflowRunRead_eq_ok answer with ⟨count, won⟩
          exact ⟨count, made.trans (congrArg some won)⟩
        · exact exclusive.returns other workflowRun
            ((Function.update_of_ne same _ _).symm.trans returned)
      · exact exclusive
  | heartbeat db => exact ⟨exclusive.unique, exclusive.returns⟩
  | other request => exact ⟨exclusive.unique, exclusive.returns⟩

theorem Exclusive.run (exclusive : Exclusive state) (fresh : StaysFresh dialect id state events) :
    Exclusive (run dialect id state events) := by
  induction events generalizing state with
  | nil => exact exclusive
  | cons event rest induction => exact induction (exclusive.step event fresh.1) fresh.2

theorem table_step_of_lost (event : Event Call) (own : event.call? = some call)
    (lost : ¬Won (step dialect id state event) call) :
    (step dialect id state event).table = state.table := by
  cases event with
  | update other db =>
      cases own
      rw [step] at lost ⊢
      split at lost
      · rfl
      · apply resumeWorkflowRun_unchanged
        intro count answer
        exact lost ⟨count, (Function.update_self call _ _).trans (congrArg some answer)⟩
  | read other db =>
      rw [step]
      split
      · rfl
      · rfl
  | heartbeat db => cases own
  | other request => cases own

end

/-! ## Histories of less than a day -/

section

variable {Call : Type} [DecidableEq Call] {dialect : Dialect} {id : String}

def WithinDay (start : Instant) : Event Call → Prop
  | .update _ db => start ≤ db.clock ∧ db.clock ≤ start + 86400 * microsPerSecond
  | .read _ _ => True
  | .heartbeat db => start ≤ db.clock
  | .other _ => False

def Resumed (dialect : Dialect) (id : String) (start : Instant) (state : State Call) : Prop :=
  (∃ call, Won state call) → ∀ row, state.table.find id = some row →
    row.status = .running ∧
      ∃ clock, start ≤ clock ∧ row.lastActivityAt = some (dialect.now clock)

theorem freshAt_of_now (bounded : start ≤ clock) (soon : later ≤ start + 86400 * microsPerSecond)
    (recorded : row.lastActivityAt = some (dialect.now clock)) : FreshAt dialect later row := by
  refine ⟨dialect.now clock, recorded, Int.not_lt.mpr ?_⟩
  cases dialect with
  | postgres =>
      simp only [Dialect.nowMinusDays, Dialect.now, Dialect.timestamp,
        SqlWorkflowStore.orphanResumeStaleDays, microsPerSecond, Nat.cast_one] at soon ⊢
      omega
  | sqlite =>
      simp only [Dialect.nowMinusDays, Dialect.now, Dialect.timestamp, wholeSecond,
        SqlWorkflowStore.orphanResumeStaleDays, microsPerSecond, Nat.cast_one] at soon ⊢
      omega

omit [DecidableEq Call] in
theorem Resumed.fresh {start : Instant} {state : State Call} {call : Call} {db : DbCall}
    (resumed : Resumed dialect id start state) (within : WithinDay start (.update call db))
    (won : ∃ other, Won state other) (row : RunRow) (found : state.table.find id = some row) :
    row.status = .running ∧ FreshAt dialect db.clock row := by
  rcases resumed won row found with ⟨running, clock, bounded, recorded⟩
  exact ⟨running, freshAt_of_now bounded within.2 recorded⟩

theorem find_resumeWorkflowRun
    (answer : (SqlWorkflowStore.resumeWorkflowRun dialect db table id).2 = .ok (count + 1))
    (found : (SqlWorkflowStore.resumeWorkflowRun dialect db table id).1.find id = some row) :
    row.status = .running ∧ row.lastActivityAt = some (dialect.now db.clock) := by
  rw [SqlWorkflowStore.resumeWorkflowRun, SqlWorkflowStore.query] at answer found
  cases failure : db.failure with
  | some error =>
      rw [failure] at answer
      cases answer
  | none =>
      simp only [failure, SqlWorkflowStore.reportCount, Except.ok.injEq] at answer found
      have positive : 0 < table.affected (SqlWorkflowStore.resumeUpdate dialect db.clock id) := by
        omega
      rcases Table.affected_pos.mp positive with ⟨matched, member, holds⟩
      have same : matched.id = id := by
        simp only [SqlWorkflowStore.resumeUpdate, decide_eq_true_eq] at holds
        exact holds.1
      rw [Table.find_update, Table.find_eq_some.mpr ⟨member, same⟩, Option.map_some,
        RowUpdate.apply, if_pos holds] at found
      cases found
      exact ⟨rfl, rfl⟩

theorem Resumed.step {state : State Call} (resumed : Resumed dialect id start state)
    (within : WithinDay start event) : Resumed dialect id start (step dialect id state event) := by
  cases event with
  | update call db =>
      by_cases won : Won (ResumeRace.step dialect id state (.update call db)) call
      · by_cases already : Won state call
        · rcases already with ⟨count, already⟩
          rw [ResumeRace.step, already]
          exact resumed
        · intro _ row found
          cases made : state.outcomes call with
          | some outcome =>
              rw [ResumeRace.step, made] at won
              exact absurd won already
          | none =>
              rw [ResumeRace.step, made] at won found
              rcases won with ⟨count, won⟩
              have answer := Option.some.inj ((Function.update_self call _ _).symm.trans won)
              rcases find_resumeWorkflowRun answer found with ⟨running, recorded⟩
              exact ⟨running, db.clock, within.1, recorded⟩
      · have same := table_step_of_lost (.update call db) rfl won
        intro someone
        rw [same]
        apply resumed
        rcases someone with ⟨other, count, won'⟩
        have different : other ≠ call := by
          intro equal
          rw [equal] at won'
          exact won ⟨count, won'⟩
        rw [ResumeRace.step] at won'
        split at won'
        · exact ⟨other, count, won'⟩
        · exact ⟨other, count, (Function.update_of_ne different _ _).symm.trans won'⟩
  | read call db =>
      rw [ResumeRace.step]
      split
      · exact resumed
      · exact resumed
  | heartbeat db =>
      intro someone row found
      rw [ResumeRace.step, SqlWorkflowStore.updateWorkflowActivity, SqlWorkflowStore.query] at found
      cases failure : db.failure with
      | some error =>
          rw [failure] at found
          exact resumed someone row found
      | none =>
          simp only [failure, Table.find_update, Option.map_eq_some_iff] at found
          rcases found with ⟨before, found, rfl⟩
          rcases resumed someone before found with ⟨running, -⟩
          have same := (Table.find_eq_some.mp found).2
          rw [RowUpdate.apply, if_pos (by simp [SqlWorkflowStore.activityUpdate, same])]
          exact ⟨running, db.clock, within, rfl⟩
  | other request => cases within

/-- The update itself records an activity, so that within a day no other client can
resume the run. -/
theorem staysFresh_of_withinDay {start : Instant} {events : List (Event Call)} {state : State Call}
    (resumed : Resumed dialect id start state) (within : ∀ event ∈ events, WithinDay start event) :
    StaysFresh dialect id state events := by
  induction events generalizing state with
  | nil => trivial
  | cons event rest induction =>
      have here := within event List.mem_cons_self
      refine ⟨?_, ?_⟩
      · intro call db same won row found
        rw [same] at here
        exact resumed.fresh here won row found
      · apply induction (resumed.step here)
        intro other member
        exact within other (List.mem_cons_of_mem _ member)

end

end ResumeRace

open ResumeRace in
/-- However the calls of any number of clients are interleaved, at most one of them
returns the run, and all others return an error and change nothing. -/
theorem resumeWorkflowRun_exclusive {Call : Type} [DecidableEq Call] (dialect : Dialect)
    (id : String) (table : RunTable) (events : List (Event Call))
    (fresh : StaysFresh dialect id { table } events) :
    (∀ first second left right,
      (run dialect id { table } events).results first = some (.ok left) →
      (run dialect id { table } events).results second = some (.ok right) → first = second) ∧
    ∃ winner : Option Call, ∀ call, winner ≠ some call →
      (∀ result, (run dialect id { table } events).results call = some result →
        ∃ error, result = .error error) ∧
      ∀ earlier event later, events = earlier ++ event :: later → event.call? = some call →
        (run dialect id { table } (earlier ++ [event])).table =
          (run dialect id { table } earlier).table := by
  have start : Exclusive ({ table } : State Call) := by
    refine ⟨?_, ?_⟩
    · intro first second won
      rcases won with ⟨count, won⟩
      cases won
    · intro call workflowRun returned
      cases returned
  have exclusive := start.run fresh
  -- The winner is the call that has matched, if there is one.
  have chosen : ∃ winner : Option Call, ∀ call,
      Won (run dialect id { table } events) call → winner = some call := by
    by_cases someone : ∃ call, Won (run dialect id { table } events) call
    · rcases someone with ⟨winner, won⟩
      exact ⟨some winner, fun call other => congrArg some (exclusive.unique _ _ won other)⟩
    · exact ⟨none, fun call won => absurd ⟨call, won⟩ someone⟩
  rcases chosen with ⟨winner, chosen⟩
  refine ⟨?_, winner, ?_⟩
  · intro first second left right leftReturned rightReturned
    exact exclusive.unique first second (exclusive.returns first left leftReturned)
      (exclusive.returns second right rightReturned)
  intro call loses
  have lost : ¬Won (run dialect id { table } events) call := fun won => loses (chosen call won)
  refine ⟨?_, ?_⟩
  · intro result returned
    cases result with
    | error error => exact ⟨error, rfl⟩
    | ok workflowRun => exact absurd (exclusive.returns call workflowRun returned) lost
  · intro earlier event later split own
    subst split
    rw [run, List.foldl_append, ← run]
    apply table_step_of_lost event own
    intro won
    apply lost
    rw [run, List.foldl_append]
    exact won_run later won

namespace ResumeRace

/-- Two clients resume a paused run, and its heartbeat comes in between. -/
def twoClients : List (Event Nat) :=
  [.update 1 { clock := 5000000 }, .update 2 { clock := 6000000 }, .heartbeat { clock := 7000000 },
    .read 2 { clock := 8000000 }, .read 1 { clock := 9000000 }]

def pausedTable : RunTable where
  rows := [{ id := "r", status := .paused, startedAt := 0 }]
  distinct := by decide

end ResumeRace

open ResumeRace in
theorem resumeWorkflowRun_exclusive_paused :
    (∃ workflowRun, (run .sqlite "r" { table := pausedTable } twoClients).results 1 =
      some (.ok workflowRun)) ∧
    (∀ first second left right,
      (run .sqlite "r" { table := pausedTable } twoClients).results first = some (.ok left) →
      (run .sqlite "r" { table := pausedTable } twoClients).results second = some (.ok right) →
      first = second) ∧
    ∃ winner : Option Nat, ∀ call, winner ≠ some call →
      (∀ result, (run .sqlite "r" { table := pausedTable } twoClients).results call = some result →
        ∃ error, result = .error error) ∧
      ∀ earlier event later, twoClients = earlier ++ event :: later → event.call? = some call →
        (run .sqlite "r" { table := pausedTable } (earlier ++ [event])).table =
          (run .sqlite "r" { table := pausedTable } earlier).table := by
  refine ⟨⟨_, rfl⟩, ?_⟩
  apply resumeWorkflowRun_exclusive
  apply @staysFresh_of_withinDay _ _ _ _ 0
  · intro someone
    rcases someone with ⟨call, count, won⟩
    cases won
  · intro event member
    simp only [twoClients, List.mem_cons, List.not_mem_nil, or_false] at member
    rcases member with rfl | rfl | rfl | rfl | rfl
    · exact ⟨by decide, by decide⟩
    · exact ⟨by decide, by decide⟩
    · exact (by decide : (0 : Int) ≤ 7000000)
    · trivial
    · trivial

end HarnessAgent
