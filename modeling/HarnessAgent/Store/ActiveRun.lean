import HarnessAgent.Store.WorkflowRuns
import Mathlib.Data.String.Basic

/-! # The run that holds a working path

The query behind the path lock. Its clauses are assembled together with the
list of parameters they refer to by position; the working path is bound as the
first parameter and no clause refers to it.
-/

namespace HarnessAgent

structure ActiveRunSelf where
  id : String
  startedAt : Instant
  deriving DecidableEq, Repr

namespace SqlWorkflowStore

inductive Parameter
  | text (value : String)
  | instant (value : Instant)
  deriving DecidableEq, Repr

inductive WhereClause
  | active
  | idDiffers (id : Nat)
  | startedBefore (startedAt id : Nat)
  deriving DecidableEq, Repr

structure ActiveRunQuery where
  params : List Parameter
  clauses : List WhereClause
  deriving DecidableEq, Repr

def activeRunQuery (workingPath : String) (selfRun : Option ActiveRunSelf) :
    ActiveRunQuery :=
  let params := [Parameter.text workingPath]
  let clauses := [WhereClause.active]
  match selfRun with
  | none => { params, clauses }
  | some self =>
      let params := params ++ [.text self.id]
      let clauses := clauses ++ [.idDiffers params.length]
      let params := params ++ [.instant self.startedAt]
      let startedAtParam := params.length
      let tiebreakerId := params.length - 1
      { params, clauses := clauses ++ [.startedBefore startedAtParam tiebreakerId] }

def stalePendingAgeMs : Int := 5 * 60 * 1000

/-- The instant a pending run must have started after. The unit in the
PostgreSQL fragment is not one its grammar knows, so whether that statement is
accepted is left to the circumstances of the call. -/
def stalePendingCutoff (dialect : Dialect) (clock : Instant) : Instant :=
  dialect.now clock - stalePendingAgeMs * 1000

section Query

variable (dialect : Dialect) (clock : Instant)

def isActive (row : RunRow) : Bool :=
  row.status = .running ∨ row.status = .paused ∨
    (row.status = .pending ∧ stalePendingCutoff dialect clock < row.startedAt)

def textParameter (params : List Parameter) (position : Nat) : Option String :=
  match params[position - 1]? with
  | some (.text value) => some value
  | _ => none

def instantParameter (params : List Parameter) (position : Nat) : Option Instant :=
  match params[position - 1]? with
  | some (.instant value) => some value
  | _ => none

def WhereClause.holds (params : List Parameter) (row : RunRow) : WhereClause → Bool
  | .active => isActive dialect clock row
  | .idDiffers id => (textParameter params id).any fun other => row.id ≠ other
  | .startedBefore startedAt id =>
      (instantParameter params startedAt).any fun bound =>
        dialect.timestamp row.startedAt < dialect.timestamp bound ∨
          (dialect.timestamp row.startedAt = dialect.timestamp bound ∧
            (textParameter params id).any fun other => row.id < other)

def ActiveRunQuery.holds (query : ActiveRunQuery) (row : RunRow) : Bool :=
  query.clauses.all fun clause => clause.holds dialect clock query.params row

end Query

def startedBeforeOrWith (left right : RunRow) : Prop :=
  left.startedAt < right.startedAt ∨ left.startedAt = right.startedAt ∧ left.id ≤ right.id

instance : DecidableRel startedBeforeOrWith := fun left right =>
  inferInstanceAs (Decidable (left.startedAt < right.startedAt ∨
    left.startedAt = right.startedAt ∧ left.id ≤ right.id))

def getActiveWorkflowRunByPath (dialect : Dialect) (call : DbCall) (table : RunTable)
    (workingPath : String) (selfRun : Option ActiveRunSelf) :
    Except StoreError (Option WorkflowRun) :=
  match call.failure with
  | some error => .error (.db ("Failed to get active workflow run by path: " ++ error))
  | none =>
      let query := activeRunQuery workingPath selfRun
      .ok ((table.firstBy startedBeforeOrWith (query.holds dialect call.clock)).map
        normalizeRowToRun)

instance : Std.Total startedBeforeOrWith where
  total left right := by
    unfold startedBeforeOrWith
    rcases lt_trichotomy left.startedAt right.startedAt with before | same | after
    · exact .inl (.inl before)
    · rcases le_total left.id right.id with smaller | larger
      · exact .inl (.inr ⟨same, smaller⟩)
      · exact .inr (.inr ⟨same.symm, larger⟩)
    · exact .inr (.inl after)

instance : IsTrans RunRow startedBeforeOrWith where
  trans first second third := by
    rintro (before | ⟨same, smaller⟩) (before' | ⟨same', smaller'⟩)
    · exact .inl (before.trans before')
    · exact .inl (same' ▸ before)
    · exact .inl (same ▸ before')
    · exact .inr ⟨same.trans same', smaller.trans smaller'⟩

def StartedBefore (left right : RunRow) : Prop :=
  left.startedAt < right.startedAt ∨ left.startedAt = right.startedAt ∧ left.id < right.id

variable {left right : RunRow}

theorem StartedBefore.ordered (before : StartedBefore left right) :
    startedBeforeOrWith left right := by
  rcases before with earlier | ⟨same, smaller⟩
  · exact .inl earlier
  · exact .inr ⟨same, smaller.le⟩

theorem StartedBefore.not_ordered (before : StartedBefore left right) :
    ¬ startedBeforeOrWith right left := by
  rintro (after | ⟨same, larger⟩)
  · rcases before with earlier | ⟨equal, _⟩
    · exact lt_asymm after earlier
    · exact after.ne' equal
  · rcases before with earlier | ⟨_, smaller⟩
    · exact earlier.ne' same
    · exact smaller.not_ge larger

theorem startedBefore_of_differs (ordered : startedBeforeOrWith left right)
    (differs : left.id ≠ right.id) : StartedBefore left right := by
  rcases ordered with before | ⟨same, smaller⟩
  · exact .inl before
  · exact .inr ⟨same, lt_of_le_of_ne smaller differs⟩

section Competitors

variable (dialect : Dialect) (clock : Instant)

/-- The runs that the query considers: active, and if a caller is given, other
than the caller and started before it in the precision of the dialect. -/
def Competes (selfRun : Option ActiveRunSelf) (row : RunRow) : Prop :=
  isActive dialect clock row = true ∧
    ∀ self ∈ selfRun, row.id ≠ self.id ∧
      (dialect.timestamp row.startedAt < dialect.timestamp self.startedAt ∨
        dialect.timestamp row.startedAt = dialect.timestamp self.startedAt ∧
          row.id < self.id)

theorem holds_activeRunQuery (workingPath : String) (selfRun : Option ActiveRunSelf)
    (row : RunRow) :
    (activeRunQuery workingPath selfRun).holds dialect clock row = true ↔
      Competes dialect clock selfRun row := by
  cases selfRun with
  | none => simp [activeRunQuery, ActiveRunQuery.holds, WhereClause.holds, Competes]
  | some self =>
      simp [activeRunQuery, ActiveRunQuery.holds, WhereClause.holds, Competes,
        textParameter, instantParameter]

variable {dialect} {call : DbCall} {table : RunTable} {workingPath : String}
  {selfRun : Option ActiveRunSelf}

theorem getActive_eq_none_iff :
    getActiveWorkflowRunByPath dialect call table workingPath selfRun = .ok none ↔
      call.failure = none ∧
        ∀ row ∈ table.rows, ¬ Competes dialect call.clock selfRun row := by
  unfold getActiveWorkflowRunByPath
  cases call.failure with
  | some error => simp
  | none =>
      simp only [Except.ok.injEq, Option.map_eq_none_iff, Table.firstBy_eq_none, true_and]
      refine forall₂_congr fun row _ => ?_
      rw [← holds_activeRunQuery dialect call.clock workingPath, Bool.not_eq_true]

theorem getActive_eq_some {run : WorkflowRun}
    (found : getActiveWorkflowRunByPath dialect call table workingPath selfRun =
      .ok (some run)) :
    call.failure = none ∧ ∃ row ∈ table.rows, normalizeRowToRun row = run ∧
      Competes dialect call.clock selfRun row ∧
      ∀ other ∈ table.rows, Competes dialect call.clock selfRun other →
        startedBeforeOrWith row other := by
  unfold getActiveWorkflowRunByPath at found
  cases failure : call.failure with
  | some error => rw [failure] at found; cases found
  | none =>
      rw [failure] at found
      simp only [Except.ok.injEq, Option.map_eq_some_iff] at found
      rcases found with ⟨row, first, same⟩
      rcases Table.firstBy_least _ first with ⟨member, holds, least⟩
      refine ⟨rfl, row, member, same, (holds_activeRunQuery ..).mp holds, ?_⟩
      intro other otherMember competes
      exact least other otherMember ((holds_activeRunQuery ..).mpr competes)

end Competitors

end SqlWorkflowStore

open SqlWorkflowStore in
/-- The returned run is on the requested path exactly when every competing run
on another path started after a competing run on the requested one. -/
theorem getActiveWorkflowRunByPath_onPath_iff (dialect : Dialect) (call : DbCall)
    (table : RunTable) (workingPath : String) (selfRun : Option ActiveRunSelf) :
    (∀ run, getActiveWorkflowRunByPath dialect call table workingPath selfRun =
        .ok (some run) → run.workingPath = some workingPath) ↔
      (call.failure ≠ none ∨
        ∀ row ∈ table.rows, Competes dialect call.clock selfRun row →
          row.workingPath ≠ some workingPath →
          ∃ holder ∈ table.rows, Competes dialect call.clock selfRun holder ∧
            holder.workingPath = some workingPath ∧ StartedBefore holder row) := by
  constructor
  · intro onPath
    by_cases failure : call.failure = none
    · right
      intro row member competes elsewhere
      cases result : getActiveWorkflowRunByPath dialect call table workingPath selfRun with
      | error error => simp [getActiveWorkflowRunByPath, failure] at result
      | ok found =>
          cases found with
          | none => exact absurd competes ((getActive_eq_none_iff.mp result).2 row member)
          | some run =>
              rcases getActive_eq_some result with
                ⟨_, holder, holderMember, rfl, holderCompetes, least⟩
              have holderPath : holder.workingPath = some workingPath := onPath _ result
              refine ⟨holder, holderMember, holderCompetes, holderPath, ?_⟩
              refine startedBefore_of_differs (least row member competes) fun sameId => ?_
              have same : holder = row :=
                List.inj_on_of_nodup_map table.distinct holderMember member sameId
              exact elsewhere (same ▸ holderPath)
    · exact .inl failure
  · rintro (failure | covered) run result
    · exact absurd (getActive_eq_some result).1 failure
    · rcases getActive_eq_some result with ⟨_, row, member, rfl, competes, least⟩
      by_contra elsewhere
      rcases covered row member competes elsewhere with
        ⟨holder, holderMember, holderCompetes, _, before⟩
      exact before.not_ordered (least holder holderMember holderCompetes)

namespace SqlWorkflowStore

def otherPathTable : RunTable where
  rows := [{ id := "a", status := .running, startedAt := 0, workingPath := some "/other" }]
  distinct := by decide

end SqlWorkflowStore

open SqlWorkflowStore in
theorem getActiveWorkflowRunByPath_otherPath :
    ¬ (∀ run, getActiveWorkflowRunByPath .sqlite { clock := 2000000 } otherPathTable "/here"
        (some { id := "b", startedAt := 1000000 }) = .ok (some run) →
        run.workingPath = some "/here") := by
  intro onPath
  have wrong := onPath (normalizeRowToRun
    { id := "a", status := .running, startedAt := 0, workingPath := some "/other" }) (by decide)
  exact absurd wrong (by decide)

structure RunStore (dialect : Dialect) where
  table : RunTable
  precise : RunHistory.PreciseStarts dialect table

namespace RunStore

variable {dialect : Dialect}

def run {Client : Type} (store : RunStore dialect) (requests : List (RunRequest Client)) :
    RunStore dialect where
  table := RunHistory.run dialect store.table requests
  precise := RunHistory.preciseStarts_run dialect store.precise requests

variable (store : RunStore dialect) (call : DbCall) (workingPath : String)

/-- The active runs on a path, stale pending ones left out. -/
def contenders : List RunRow :=
  store.table.rows.filter fun row =>
    SqlWorkflowStore.isActive dialect call.clock row ∧ row.workingPath = some workingPath

/-- A run that asks with the given start is told that nobody else holds the path. -/
def ToldFree (row : RunRow) (startedAt : Instant) : Prop :=
  SqlWorkflowStore.getActiveWorkflowRunByPath dialect call store.table workingPath
    (some { id := row.id, startedAt }) = .ok none

variable {store call workingPath}

theorem mem_contenders {row : RunRow} :
    row ∈ store.contenders call workingPath ↔
      row ∈ store.table.rows ∧ SqlWorkflowStore.isActive dialect call.clock row = true ∧
        row.workingPath = some workingPath := by
  simp [contenders]

theorem eq_of_id (leftMember : left ∈ store.table.rows) (rightMember : right ∈ store.table.rows)
    (equal : left.id = right.id) : left = right :=
  List.inj_on_of_nodup_map store.table.distinct leftMember rightMember equal

open SqlWorkflowStore in
theorem competes_iff {caller row : RunRow} (callerMember : caller ∈ store.table.rows)
    (member : row ∈ store.table.rows) :
    Competes dialect call.clock (some { id := caller.id, startedAt := caller.startedAt }) row ↔
      isActive dialect call.clock row = true ∧ StartedBefore row caller := by
  simp only [Competes, Option.mem_def, Option.some.injEq, forall_eq',
    store.precise caller callerMember, store.precise row member, StartedBefore]
  constructor
  · rintro ⟨active, _, before⟩
    exact ⟨active, before⟩
  · rintro ⟨active, before⟩
    refine ⟨active, ?_, before⟩
    rintro equal
    rcases eq_of_id member callerMember equal with rfl
    rcases before with earlier | ⟨_, smaller⟩
    · exact lt_irrefl _ earlier
    · exact lt_irrefl _ smaller

open SqlWorkflowStore in
theorem toldFree_unique {claimed : RunRow → Instant}
    (honest : ∀ row ∈ store.contenders call workingPath,
      dialect.timestamp row.startedAt ≤ dialect.timestamp (claimed row))
    {left right : RunRow} (leftMember : left ∈ store.contenders call workingPath)
    (rightMember : right ∈ store.contenders call workingPath)
    (leftFree : store.ToldFree call workingPath left (claimed left))
    (rightFree : store.ToldFree call workingPath right (claimed right)) : left = right := by
  have sees : ∀ caller ∈ store.contenders call workingPath,
      ∀ other ∈ store.contenders call workingPath,
      store.ToldFree call workingPath caller (claimed caller) →
      ¬ StartedBefore other caller := by
    intro caller callerMember other otherMember free before
    have callerParts := mem_contenders.mp callerMember
    have otherParts := mem_contenders.mp otherMember
    have bound := honest caller callerMember
    rw [store.precise caller callerParts.1] at bound
    refine (getActive_eq_none_iff.mp free).2 other otherParts.1 ⟨otherParts.2.1, ?_⟩
    rintro self selfEqual
    rcases (Option.some.inj selfEqual) with rfl
    have competitor := (@competes_iff dialect store call caller other callerParts.1
      otherParts.1).mpr ⟨otherParts.2.1, before⟩
    refine ⟨(competitor.2 _ rfl).1, ?_⟩
    rw [store.precise other otherParts.1]
    rcases before with earlier | ⟨same, smaller⟩
    · exact .inl (earlier.trans_le bound)
    · rcases bound.lt_or_eq with later | equal
      · exact .inl (same ▸ later)
      · exact .inr ⟨same.trans equal, smaller⟩
  by_contra different
  have idsDiffer : left.id ≠ right.id := fun equal =>
    different (eq_of_id (mem_contenders.mp leftMember).1 (mem_contenders.mp rightMember).1 equal)
  rcases Std.Total.total (r := startedBeforeOrWith) left right with before | before
  · exact sees right rightMember left leftMember rightFree
      (startedBefore_of_differs before idsDiffer)
  · exact sees left leftMember right rightMember leftFree
      (startedBefore_of_differs before idsDiffer.symm)

end RunStore

open SqlWorkflowStore RunStore in
/-- Among the active runs of a path at most one is told that the path is free.
One is, and it is the first of them, exactly when the database answers and no
active run of another path started before all of them. -/
theorem activeRun_exclusive {dialect : Dialect} (store : RunStore dialect) (call : DbCall)
    (workingPath : String) :
    (∀ claimed : RunRow → Instant,
      (∀ row ∈ store.contenders call workingPath,
        dialect.timestamp row.startedAt ≤ dialect.timestamp (claimed row)) →
      ∀ left ∈ store.contenders call workingPath,
      ∀ right ∈ store.contenders call workingPath,
        store.ToldFree call workingPath left (claimed left) →
        store.ToldFree call workingPath right (claimed right) → left = right) ∧
    ((store.contenders call workingPath ≠ [] →
        ∃ row ∈ store.contenders call workingPath,
          store.ToldFree call workingPath row row.startedAt ∧
          ∀ other ∈ store.contenders call workingPath, startedBeforeOrWith row other) ↔
      (store.contenders call workingPath = [] ∨
        call.failure = none ∧
          ∀ row ∈ store.table.rows, isActive dialect call.clock row = true →
            row.workingPath ≠ some workingPath →
            ∃ holder ∈ store.contenders call workingPath, StartedBefore holder row)) := by
  refine ⟨fun claimed honest left leftMember right rightMember =>
    toldFree_unique honest leftMember rightMember, ?_, ?_⟩
  · intro exclusive
    by_cases nonempty : store.contenders call workingPath = []
    · exact .inl nonempty
    · right
      rcases exclusive nonempty with ⟨holder, member, free, _⟩
      have holderParts := mem_contenders.mp member
      rcases getActive_eq_none_iff.mp free with ⟨answered, alone⟩
      refine ⟨answered, fun row rowMember active elsewhere => ⟨holder, member, ?_⟩⟩
      have idsDiffer : holder.id ≠ row.id := by
        intro equal
        rcases eq_of_id holderParts.1 rowMember equal with rfl
        exact elsewhere holderParts.2.2
      rcases Std.Total.total (r := startedBeforeOrWith) holder row with before | after
      · exact startedBefore_of_differs before idsDiffer
      · exact absurd ((competes_iff holderParts.1 rowMember).mpr
          ⟨active, startedBefore_of_differs after idsDiffer.symm⟩) (alone row rowMember)
  · rintro (empty | ⟨answered, covered⟩) nonempty
    · exact absurd empty nonempty
    · cases first : store.table.firstBy startedBeforeOrWith
        (fun row => decide (isActive dialect call.clock row ∧
          row.workingPath = some workingPath)) with
      | none =>
          refine absurd ?_ nonempty
          rw [List.eq_nil_iff_forall_not_mem]
          intro row member
          have parts := mem_contenders.mp member
          have absent := (Table.firstBy_eq_none _).mp first row parts.1
          simp [parts.2.1, parts.2.2] at absent
      | some row =>
          rcases Table.firstBy_least _ first with ⟨member, holds, least⟩
          have rowParts : isActive dialect call.clock row = true ∧
              row.workingPath = some workingPath := by simpa using holds
          have contender := mem_contenders.mpr ⟨member, rowParts⟩
          have leastContender : ∀ other ∈ store.contenders call workingPath,
              startedBeforeOrWith row other := by
            intro other otherMember
            have parts := mem_contenders.mp otherMember
            exact least other parts.1 (by simpa using parts.2)
          refine ⟨row, contender, ?_, leastContender⟩
          refine getActive_eq_none_iff.mpr ⟨answered, fun other otherMember competes => ?_⟩
          rcases (competes_iff member otherMember).mp competes with ⟨active, before⟩
          by_cases onPath : other.workingPath = some workingPath
          · exact before.not_ordered
              (leastContender other (mem_contenders.mpr ⟨otherMember, active, onPath⟩))
          · rcases covered other otherMember active onPath with
              ⟨holder, holderMember, holderBefore⟩
            exact before.not_ordered (IsTrans.trans _ _ _
              (leastContender holder holderMember) holderBefore.ordered)

namespace RunStore

def twoPaths : RunStore .sqlite where
  table :=
    { rows :=
        [{ id := "a", status := .running, startedAt := 0, workingPath := some "/other" },
          { id := "b", status := .running, startedAt := 1000000, workingPath := some "/here" }]
      distinct := by decide }
  precise := by
    intro row member
    simp only [List.mem_cons, List.not_mem_nil, or_false] at member
    rcases member with rfl | rfl <;> decide

end RunStore

open SqlWorkflowStore RunStore in
theorem activeRun_exclusive_otherPath :
    ¬ (twoPaths.contenders { clock := 2000000 } "/here" ≠ [] →
      ∃ row ∈ twoPaths.contenders { clock := 2000000 } "/here",
        twoPaths.ToldFree { clock := 2000000 } "/here" row row.startedAt ∧
        ∀ other ∈ twoPaths.contenders { clock := 2000000 } "/here",
          startedBeforeOrWith row other) := by
  intro exclusive
  rcases exclusive (by decide) with ⟨row, member, free, _⟩
  have contenders : twoPaths.contenders { clock := 2000000 } "/here" =
      [{ id := "b", status := .running, startedAt := 1000000,
         workingPath := some "/here" }] := by decide
  rw [contenders, List.mem_singleton] at member
  subst row
  exact absurd free (by unfold ToldFree; decide)

end HarnessAgent
