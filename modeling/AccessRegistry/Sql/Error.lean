import AccessRegistry.Failure
import AccessRegistry.Text.Quoted

/-!
# AccessRegistry.Sql.Error

Errors of the database, and the failures they stand for. A violated constraint is known by its name;
every other error is internal and keeps its text.
-/

namespace AccessRegistry
namespace Sql

/-- A column of an answer, by name or by position. -/
inductive Column where
  | name (s : String)
  | position (i : Nat)
deriving DecidableEq, Repr

def Column.text : Column → String
  | .name s => Text.quoted s
  | .position i => toString i

inductive Error where
  /-- an error that the database answers with -/
  | reported (constraint : Option String) (message : String)
  /-- an answer that makes no sense -/
  | protocol (message : String)
  /-- no row where one has to be -/
  | rowMissing
  /-- no value where one has to be -/
  | nullColumn (column : Column)
deriving DecidableEq, Repr

namespace Error

def text : Error → String
  | .reported _ message => "error returned from database: " ++ message
  | .protocol message => "encountered unexpected or invalid data: " ++ message
  | .rowMissing => "no rows returned by a query that expected to return at least one row"
  | .nullColumn column =>
    "error occurred while decoding column " ++ column.text ++
      ": unexpected null; try decoding as an `Option`"

/-- What it means that a constraint is violated. -/
def ofConstraint? (constraint : String) : Option Failure :=
  match constraint with
  | "domain_name_system_id_key" => some .domainDuplicateName
  | "domain_system_id_fkey" => some .systemNotFound
  | "app_group_name_domain_id_key" => some .appGroupDuplicateName
  | "app_group_domain_id_fkey" => some .domainNotFound
  | "application_pkey" => some .applicationDuplicateId
  | "application_name_application_group_id_key" => some .applicationDuplicateName
  | "application_application_group_id_fkey" => some .appGroupNotFound
  | "application_type_check" =>
    some (.invalidArgument "application type must be SYSTEM or MOBILE")
  | "token_pkey" => some .tokenDuplicate
  | "token_app_id_fkey" => some .applicationNotFound
  | "access_list_pkey" =>
    some (.invalidArgument "method listed more than once for the application")
  | "access_list_app_id_fkey" => some .applicationNotFound
  | _ => none

/-- The failure that an error stands for. -/
def toFailure (e : Error) : Failure :=
  let known :=
    match e with
    | .reported (some constraint) _ => ofConstraint? constraint
    | _ => none
  known.getD (.internal e.text)

end Error

end Sql
end AccessRegistry
