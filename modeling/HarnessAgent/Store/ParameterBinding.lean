import HarnessAgent.Foundation.Json
import HarnessAgent.Foundation.Uuid

/-! # Parameters of statements

Both adapters bind JSON values as parameters. SQLite gets a text as it is; for Postgres a
text that is a UUID is bound as one, so that it fits into a UUID column, and is turned back
into a text where it is stored in a text column.
-/

namespace HarnessAgent

structure UuidLibrary where
  Uuid : Type
  parse : String → Option Uuid
  toString : Uuid → String

def UuidLibrary.IsUuid (uuids : UuidLibrary) (text : String) : Prop :=
  (uuids.parse text).isSome = true

instance (uuids : UuidLibrary) (text : String) : Decidable (uuids.IsUuid text) :=
  inferInstanceAs (Decidable (_ = true))

namespace Postgres

variable (uuids : UuidLibrary)

inductive StringArgument
  | text (value : String)
  | uuid (value : uuids.Uuid)

inductive Argument
  | nullText
  | bool (value : Bool)
  | int8 (value : Int)
  | float8 (value : F64)
  | string (argument : StringArgument uuids)
  | jsonb (value : Value)

def stringArgument (text : String) : StringArgument uuids :=
  match uuids.parse text with
  | some uuid => .uuid uuid
  | none => .text text

def buildArg : Value → Argument uuids
  | .null => .nullText
  | .bool value => .bool value
  | .number number =>
      match (Value.number number).asI64 with
      | some value => .int8 value
      | none => .float8 number.asF64
  | .string text => .string (stringArgument uuids text)
  | .array items => .jsonb (.array items)
  | .object members => .jsonb (.object members)

def buildArgs (params : List Value) : List (Argument uuids) :=
  params.map (buildArg uuids)

variable {uuids}

/-- What a text column holds after the assignment. No text of the database holds the null
character, and a UUID is stored as its text. -/
def StringArgument.storedText : StringArgument uuids → Option String
  | .text value => if value.toList.any (· == '\x00') then none else some value
  | .uuid value => some (uuids.toString value)

def decodeText (stored : String) : Value :=
  .string stored

end Postgres

namespace Sqlite

inductive Argument
  | null
  | integer (value : Int)
  | real (value : F64)
  | text (value : String)
  deriving DecidableEq, Repr

def buildArg (serde : SerdeJson) : Value → Argument
  | .null => .null
  | .bool value => .integer (if value then 1 else 0)
  | .number number =>
      match (Value.number number).asI64 with
      | some value => .integer value
      | none => .real number.asF64
  | .string text => .text text
  | .array items => .text (serde.toString (.array items))
  | .object members => .text (serde.toString (.object members))

def decodeColumn : Argument → Value
  | .null => .null
  | .integer value =>
      if 0 ≤ value then .number (.posInt value.toNat) else .number (.negInt (-value).toNat)
  | .real value => if value.isFinite then .number (.float value) else .null
  | .text value => .string value

end Sqlite

open Postgres

structure Survives (uuids : UuidLibrary) (serde : SerdeJson) (text : String) : Prop where
  sqlite : Sqlite.decodeColumn (Sqlite.buildArg serde (.string text)) = .string text
  postgres : ∃ stored, (stringArgument uuids text).storedText = some stored ∧
    decodeText stored = .string text

/-- Both databases give a text back exactly if it is a UUID in the spelling that the library
writes, or no UUID and without the null character. -/
theorem survives_iff (uuids : UuidLibrary) (serde : SerdeJson) (text : String) :
    Survives uuids serde text ↔
      match uuids.parse text with
      | some uuid => uuids.toString uuid = text
      | none => '\x00' ∉ text.toList := by
  have written : Survives uuids serde text ↔
      (stringArgument uuids text).storedText = some text := by
    constructor
    · intro survives
      rcases survives.postgres with ⟨stored, kept, same⟩
      cases same
      exact kept
    · intro kept
      exact ⟨rfl, text, kept, rfl⟩
  rw [written, stringArgument]
  cases uuids.parse text with
  | some uuid =>
      dsimp only
      rw [StringArgument.storedText, Option.some.injEq]
  | none =>
      dsimp only
      rw [StringArgument.storedText]
      simp

def uuidCrate : UuidLibrary where
  Uuid := Uuid
  parse := Uuid.parse
  toString := Uuid.print

theorem survives_upper_case :
    ((stringArgument uuidCrate "550E8400-E29B-41D4-A716-446655440000").storedText =
        some "550e8400-e29b-41d4-a716-446655440000") ∧
      ¬∀ serde text, Survives uuidCrate serde text := by
  have stored : (stringArgument uuidCrate "550E8400-E29B-41D4-A716-446655440000").storedText =
      some "550e8400-e29b-41d4-a716-446655440000" := by
    decide +kernel
  refine ⟨stored, ?_⟩
  intro survives
  rcases (survives { toString := fun _ => "", fromStr := fun _ => none }
    "550E8400-E29B-41D4-A716-446655440000").postgres with ⟨kept, written, same⟩
  rw [stored] at written
  cases written
  exact absurd (Value.string.inj same) (by decide)

end HarnessAgent
