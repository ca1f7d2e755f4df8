import AccessRegistry.Store.Tables

/-!
# AccessRegistry.Describe

One-line descriptions of the parts of a running service, for logs. They tell sizes and switches and
never contents.
-/

namespace AccessRegistry
namespace Describe

/-- A name with fields between braces. -/
def fields (name : String) (parts : List String) : String :=
  name ++ " \x7b " ++ ", ".intercalate parts ++ " \x7d"

def field (name value : String) : String := name ++ ": " ++ value

def bool (b : Bool) : String := if b then "true" else "false"

/-- The tables by their sizes. -/
def tables (t : Tables) : String :=
  fields "MemoryStore"
    [field "domains" (toString t.domains.size), field "app_groups" (toString t.groups.size),
      field "applications" (toString t.applications.size),
      field "tokens" (toString t.tokens.size),
      field "access_lists" (toString t.accessLists.size)]

def ports : String := fields "Repositories" [".."]

/-- The service by what it has. -/
def state (hasPool keepsMetrics : Bool) : String :=
  fields "AppState" [field "db_pool" (bool hasPool), field "metrics" (bool keepsMetrics), ".."]

def rules : String := fields "Services" [".."]

def work : String := "TxWork"

end Describe
end AccessRegistry
