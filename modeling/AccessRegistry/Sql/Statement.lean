import AccessRegistry.Sql.Error
import AccessRegistry.Record.Basic

/-!
# AccessRegistry.Sql.Statement

Statements with parameters, and the rows that come back. The text of a statement has a place `$n`
for each parameter; what a caller supplies is a parameter and never part of the text.
-/

namespace AccessRegistry
namespace Sql

/-- A parameter of a statement. -/
inductive Param where
  | int (n : Int)
  | text (s : String)
  | bool (b : Bool)
  | time (t : Instant)
  | ints (ns : List Int)
  | texts (ss : List String)
  | bools (bs : List Bool)
deriving DecidableEq, Repr

structure Statement where
  text : String
  params : List Param
deriving DecidableEq, Repr

/-- A value of a row. -/
inductive Cell where
  | null
  | int (n : Int)
  | text (s : String)
  | bool (b : Bool)
  | time (t : Instant)
deriving DecidableEq, Repr

/-- Values by column. -/
abbrev Row := List (String × Cell)

inductive Reply where
  | rows (rs : List Row)
  | count (n : Nat)
  | error (e : Error)
deriving Repr

/-! ## Parameters -/

namespace Param

def int32 (n : Int32) : Param := .int n.toInt

def int64 (n : Int64) : Param := .int n.toInt

def ids (ns : List Int32) : Param := .ints (ns.map Int32.toInt)

/-- Seconds from 1970 to 2000, from where the database counts time. -/
def epoch : Int := 946684800

/-- An instant as it is sent. The queries bind the time as it is; the encoding of the driver is what
counts whole microseconds from the year 2000 and cuts the rest off towards it. -/
def instant (t : Instant) : Param :=
  let micros := (t.totalNanos - epoch * Instant.nanosPerSecond).tdiv 1000 + epoch * 1000000
  .time ⟨micros / 1000000, (micros % 1000000).toNat * 1000⟩

end Param

/-! ## Rows -/

namespace Row

/-- The value in a column, read as what it should be. -/
def get {α : Type} (row : Row) (column : String) (read : Cell → Option α) : Except Error α :=
  match row.find? fun c => c.1 == column with
  | none | some (_, .null) => .error (.nullColumn (.name column))
  | some (_, cell) =>
    match read cell with
    | some a => .ok a
    | none => .error (.protocol ("unexpected value in column " ++ Text.quoted column))

def int? : Cell → Option Int
  | .int n => some n
  | _ => none

def int32 (row : Row) (column : String) : Except Error Int32 :=
  row.get column fun c => (int? c).map Int32.ofInt

def int64 (row : Row) (column : String) : Except Error Int64 :=
  row.get column fun c => (int? c).map Int64.ofInt

def text (row : Row) (column : String) : Except Error String :=
  row.get column fun
    | .text s => some s
    | _ => none

def bool (row : Row) (column : String) : Except Error Bool :=
  row.get column fun
    | .bool b => some b
    | _ => none

def time (row : Row) (column : String) : Except Error Instant :=
  row.get column fun
    | .time t => some t
    | _ => none

def domain (row : Row) : Except Error Domain := do
  return ⟨← row.int32 "id", ← row.text "name", ← row.text "description", ← row.int32 "system_id",
    ← row.time "created_at", ← row.time "updated_at"⟩

def group (row : Row) : Except Error AppGroup := do
  return ⟨← row.int32 "id", ← row.text "name", ← row.text "description", ← row.int32 "domain_id",
    ← row.time "created_at", ← row.time "updated_at"⟩

/-- An application whose type is still a text. -/
structure StoredApplication where
  type : String
  ofType : ApplicationType → Application

def application (row : Row) : Except Error StoredApplication := do
  let id ← row.int32 "id"
  let name ← row.text "name"
  let description ← row.text "description"
  let groupId ← row.int32 "application_group_id"
  let type ← row.text "type"
  let createdAt ← row.time "created_at"
  let updatedAt ← row.time "updated_at"
  return ⟨type, fun t => ⟨id, name, description, groupId, t, createdAt, updatedAt⟩⟩

def StoredApplication.record (a : StoredApplication) : Except Failure Application :=
  match ApplicationType.ofText a.type with
  | .ok t => .ok (a.ofType t)
  | .error _ => .error (.internal ("unknown application type " ++ Text.quoted a.type))

def token (row : Row) : Except Error Token := do
  return ⟨← row.text "token", ← row.int32 "app_id", ← row.int64 "expire_time",
    ← row.time "created_at"⟩

def authData (row : Row) : Except Error AuthData := do
  return ⟨← row.int32 "app_id", ← row.text "app_name", ← row.int32 "application_group_id",
    ← row.int32 "domain_id", ← row.int32 "system_id", ← row.int64 "expire_time",
    ← row.time "created_at"⟩

def accessList (row : Row) : Except Error AccessList := do
  return ⟨← row.int32 "app_id", ← row.text "method", ← row.bool "value"⟩

/-- The only value of a row. -/
def only {α : Type} (row : Row) (column : String) (read : Row → String → Except Error α) :
    Except Error α :=
  match read row column with
  | .error (.nullColumn _) => .error (.nullColumn (.position 0))
  | r => r

end Row

/-! ## Replies -/

namespace Reply

variable {α : Type}

def fail (e : Error) : Except Failure α := .error e.toFailure

/-- The first row, if there is one. -/
def first (read : Row → Except Error α) (missing : Failure) : Reply → Except Failure α
  | .error e => fail e
  | .rows (row :: _) => (read row).mapError Error.toFailure
  | .rows [] | .count _ => .error missing

/-- The first row, where there has to be one. -/
def one (read : Row → Except Error α) : Reply → Except Failure α :=
  first read Error.rowMissing.toFailure

/-- All rows. -/
def all (read : Row → Except Error α) : Reply → Except Failure (List α)
  | .error e => fail e
  | .rows rs => (rs.mapM read).mapError Error.toFailure
  | .count _ => .ok []

/-- How many rows the statement touched. -/
def affected : Reply → Except Failure Nat
  | .error e => fail e
  | .rows rs => .ok rs.length
  | .count n => .ok n

end Reply

end Sql
end AccessRegistry
