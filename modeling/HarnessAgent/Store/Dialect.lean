import HarnessAgent.Schema.WorkflowRun

/-! # The two SQL dialects

What the dialect-specific fragments of a statement denote. The clock is an
instant in microseconds; SQLite stores and compares whole seconds.
-/

namespace HarnessAgent

inductive Dialect
  | postgres
  | sqlite
  deriving DecidableEq, Repr

def microsPerSecond : Int := 1000000

def wholeSecond (instant : Instant) : Instant :=
  instant / microsPerSecond * microsPerSecond

namespace Dialect

def timestamp : Dialect → Instant → Instant
  | .postgres, instant => instant
  | .sqlite, instant => wholeSecond instant

def now (dialect : Dialect) (clock : Instant) : Instant :=
  dialect.timestamp clock

def nowMinusDays (dialect : Dialect) (clock : Instant) (days : Nat) : Instant :=
  dialect.now clock - days * 86400 * microsPerSecond

/-- Concatenation of two documents: objects are merged member by member, and
anything else is concatenated as arrays. -/
def jsonbConcat : Value → Value → Value
  | .object left, .object right => .object (Members.concat left right)
  | .array left, .array right => .array (left ++ right)
  | .array left, right => .array (left ++ [right])
  | left, .array right => .array (left :: right)
  | left, right => .array [left, right]

/-- Merging a document into a column; a missing column value stays missing. -/
def jsonMerge (dialect : Dialect) (column : Option Value) (update : Value) :
    Option Value :=
  column.map fun stored =>
    match dialect with
    | .postgres => jsonbConcat stored update
    | .sqlite => stored.mergePatch update

theorem timestamp_timestamp (dialect : Dialect) (instant : Instant) :
    dialect.timestamp (dialect.timestamp instant) = dialect.timestamp instant := by
  cases dialect with
  | postgres => rfl
  | sqlite =>
      simp only [timestamp, wholeSecond]
      rw [Int.mul_ediv_cancel _ (by decide)]

end Dialect

end HarnessAgent
