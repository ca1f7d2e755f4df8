import AccessRegistry.Http.Endpoint

/-!
# AccessRegistry.Http.Document

What the description of the interface says: its title, its operations, the names of the values that
go in and out, and the groups of operations.
-/

namespace AccessRegistry
namespace Http
namespace Document

def title : String := "ISP System Service"

def version : String := "0.1.0"

def description : String :=
  "Registry of domains, application groups and applications, with bearer tokens, access lists " ++
    "and the authenticate/authorize checks used by the gateway."

/-- The groups of operations and what they are for. -/
def tags : List (String × String) :=
  [("secure", "Token authentication and endpoint authorization"),
    ("access-list", "Per-application endpoint permissions"),
    ("domain", "Domains of a system"),
    ("application", "Applications and the system tree"),
    ("token", "Bearer tokens"),
    ("application-group", "Application groups (services) of a domain")]

/-- The names of the values that answers are made of. -/
def answerSchemas : List String :=
  ["Domain", "AppGroup", "Application", "ApplicationType", "Token", "AccessList",
    "ApplicationWithTokens", "DomainNode", "ServiceNode", "ErrorBody", "ErrorDetail",
    "CountResponse", "AuthenticateResponse", "AuthDataView", "AuthorizeResponse", "MethodEntry",
    "NextIdResponse", "RevokeResponse"]

def sortNames (names : List String) : List String :=
  (names.mergeSort fun a b => decide (a ≤ b)).eraseDups

/-- The names of all values, in ascending order. -/
def schemas : List String :=
  sortNames (answerSchemas ++ Endpoint.all.filterMap fun e => e.request)

/-- The paths of all operations, in ascending order. -/
def paths : List String := sortNames (Endpoint.all.map fun e => e.path)

/-- The operation at a path. -/
def operation? (path : String) : Option Endpoint := Endpoint.all.find? fun e => e.path == path

end Document
end Http
end AccessRegistry
