import AccessRegistry.Config.Settings
import AccessRegistry.Sql.Statement

/-!
# AccessRegistry.Sql.Setup

Getting a database ready: logging in, creating the configured schema, and creating the tables in it.
The first stage that fails ends it.
-/

namespace AccessRegistry
namespace Sql

open Config (Database)

/-- What is sent to log in. -/
structure Login where
  user : String
  database : String
  options : Option String
  password : String
deriving DecidableEq, Repr

def Login.ofDatabase (d : Database) : Login :=
  ⟨d.username, d.database, d.schema.map fun s => "-c search_path=" ++ s, d.password⟩

inductive Stage where
  | login (l : Login)
  | schema (s : Statement)
  | migration
deriving DecidableEq, Repr

namespace Stage

/-- The statement that creates a schema, whose name stands in it between double quotes. -/
def createSchema (name : String) : Statement :=
  ⟨"CREATE SCHEMA IF NOT EXISTS \"" ++ name ++ "\"", []⟩

/-- The stages for a database. -/
def all (d : Database) : List Stage :=
  .login (.ofDatabase d) ::
    (match d.schema with
      | some s => [.schema (createSchema s)]
      | none => []) ++ [.migration]

/-- What a stage runs, if it is more than logging in. -/
def shown : Stage → Option String
  | .login _ => none
  | .schema s => some s.text
  | .migration => some "0001_init.sql"

/-- What is said of a stage that fails. -/
def failure (e : Error) : Stage → String
  | .migration => "while executing migration 1: " ++ e.text
  | _ => e.text

/-- Runs stages: what they ran, and how the last of them failed. -/
def run (errorOf : Stage → Option Error) : List Stage → List String × Option String
  | [] => ([], none)
  | s :: rest =>
    match errorOf s with
    | some e => (s.shown.toList, some (s.failure e))
    | none =>
      let (ran, failed) := run errorOf rest
      (s.shown.toList ++ ran, failed)

end Stage

end Sql
end AccessRegistry
