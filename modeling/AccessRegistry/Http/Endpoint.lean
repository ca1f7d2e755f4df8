import AccessRegistry.Http.Answer
import AccessRegistry.Http.Body
import AccessRegistry.Http.MediaType

/-!
# AccessRegistry.Http.Endpoint

The thirty operations of the interface. Each is a `POST` to a path of its own with one JSON value
in and one out: `Endpoint.handle` reads the body, runs a rule of the registry, and shows its result.
An endpoint also describes itself for the document of the interface.
-/

namespace AccessRegistry
namespace Http

open Json (Value Problem)

structure Request where
  method : String
  /-- path and query -/
  target : String
  contentType : Option String
  body : Json.Source

structure Endpoint where
  path : String
  /-- the name of the operation -/
  operation : String
  /-- the group of operations it belongs to -/
  tag : String
  /-- the name of the form of its body, if it reads one -/
  request : Option String
  /-- what each status means -/
  responses : List (Nat × String)
  handle : Request → Program (Effect Port) Answer

namespace Endpoint

def isJson (r : Request) : Bool :=
  match r.contentType with
  | none => false
  | some s => (MediaType.ofText? s).any MediaType.isJson

/-- What a client is told about a body that does not decode. -/
def problemText : Problem → String
  | .malformed => "Failed to parse the request body as JSON"
  | .unfit path fault =>
    let place := if path.isEmpty then "" else Json.pathText path ++ ": "
    "Failed to deserialize the JSON body into the target type: " ++ place ++ fault.text

/-- How many bytes of a body are read at most. -/
def maxBodySize : Nat := 2 * 1024 * 1024

/-- Refuses a body that is not declared as JSON or is too long. -/
def admitBody (r : Request) : Except String Unit :=
  if !isJson r then .error "Expected request with `Content-Type: application/json`"
  else if maxBodySize < r.body.size then
    .error "Failed to buffer the request body: length limit exceeded"
  else .ok ()

/-- Reads the body of a request: it is admitted, has the form, and keeps its rules. -/
def readBody {α : Type} (body : Body α) (r : Request) : Except String α := do
  admitBody r
  let a ← (Json.decode (body.record.decoder body.name) r.body).mapError problemText
  body.check a
  return a

/-- The answer that a rule leads to. -/
def answer (rule : Rule Value) : Program (Effect Port) Answer := do
  return Answer.ofResult (← rule.program)

/-- An endpoint that reads a body. -/
def reading {α : Type} (path operation : String) (body : Body α)
    (responses : List (Nat × String)) (rule : α → Rule Value) (tag : String) : Endpoint where
  path := path
  operation := operation
  tag := tag
  request := some body.name
  responses := responses
  handle r :=
    match readBody body r with
    | .ok a => answer (rule a)
    | .error message => pure (.malformed message)

/-- An endpoint that reads nothing. -/
def plain (path operation : String) (responses : List (Nat × String)) (rule : Rule Value)
    (tag : String) : Endpoint where
  path := path
  operation := operation
  tag := tag
  request := none
  responses := responses
  handle _ := answer rule

/-- Endpoints of one group. -/
def group (tag : String) (endpoints : List (String → Endpoint)) : List Endpoint :=
  endpoints.map fun e => e tag

/-- The checks made for every call. -/
def secure : List Endpoint :=
  group "secure" [
    reading "/system/secure/authenticate" "authenticate" Body.authenticate
      [(200, "Authentication outcome"),
        (400, "Malformed body")]
      (fun token => View.decision <$> Credentials.authenticate token),
    reading "/system/secure/authorize" "authorize" Body.authorize
      [(200, "Authorization outcome"),
        (400, "Malformed body")]
      (fun (appId, endpoint) => View.authorized <$> Permissions.authorize appId endpoint)]

/-- Permissions of an application. -/
def permissions : List Endpoint :=
  group "access-list" [
    reading "/system/access_list/get_by_id" "get_by_id" Body.id
      [(200, "Rows of the application, ordered by method"),
        (404, "Application not found")]
      (fun id => View.list View.methodEntry <$> Permissions.getById id),
    reading "/system/access_list/set_one" "set_one" Body.setOne
      [(200, "Rows affected"),
        (404, "Application not found")]
      (fun row => View.count <$> Permissions.setOne row),
    reading "/system/access_list/set_list" "set_list" Body.setList
      [(200, "Every row of the application after the write"),
        (404, "Application not found")]
      (fun req => View.list View.methodEntry <$> Permissions.setList req),
    reading "/system/access_list/delete_list" "delete_list" Body.deleteList
      [(200, "Rows deleted"),
        (404, "Application not found")]
      (fun (appId, methods) => View.count <$> Permissions.deleteList appId methods)]

/-- Domains of a system. -/
def domains : List Endpoint :=
  group "domain" [
    reading "/system/domain/get_domains_by_system_id" "get_domains_by_system_id" Body.systemId
      [(200, "Domains of the system, newest first")]
      (fun id => View.list Domain.toJson <$> Domains.getBySystemId id),
    reading "/system/domain/create_update_domain" "create_update_domain" Body.domain
      [(200, "Created or renamed domain"),
        (404, "Domain or system not found"),
        (409, "Name taken in the system")]
      (fun req => Domain.toJson <$> Domains.createUpdate req),
    reading "/system/domain/get_domain_by_id" "get_domain_by_id" Body.id
      [(200, "The domain"),
        (404, "Domain not found")]
      (fun id => Domain.toJson <$> Domains.getById id),
    reading "/system/domain/delete_domains" "delete_domains" Body.idList
      [(200, "Domains deleted"),
        (400, "Empty id list")]
      (fun ids => View.count <$> Domains.delete ids)]

/-- Applications and the system tree. -/
def applications : List Endpoint :=
  group "application" [
    reading "/system/application/get_applications" "get_applications" Body.idList
      [(200, "Matching applications")]
      (fun ids => View.list ApplicationWithTokens.toJson <$> Applications.getByIdList ids),
    reading "/system/application/get_applications_by_service_id"
      "get_applications_by_service_id" Body.serviceId
      [(200, "Applications of the group")]
      (fun id => View.list ApplicationWithTokens.toJson <$> Applications.getByServiceId id),
    reading "/system/application/create_update_application"
      "create_update_application" Body.application
      [(200, "Created or renamed application"),
        (404, "Application or group not found"),
        (409, "Name taken in the group")]
      (fun req => ApplicationWithTokens.toJson <$> Applications.createUpdate req),
    reading "/system/application/get_application_by_id" "get_application_by_id" Body.id
      [(200, "The application"),
        (404, "Application not found")]
      (fun id => ApplicationWithTokens.toJson <$> Applications.getById id),
    reading "/system/application/get_application_by_token" "get_application_by_token" Body.token
      [(200, "The application owning the token"),
        (404, "Token not found")]
      (fun token => ApplicationWithTokens.toJson <$> Applications.getByToken token),
    reading "/system/application/delete_applications" "delete_applications" Body.idList
      [(200, "Applications deleted"),
        (400, "Empty id list")]
      (fun ids => View.count <$> Applications.delete ids),
    reading "/system/application/get_system_tree" "get_system_tree" Body.systemTree
      [(200, "Domains with their groups (`services`) and applications")]
      (fun id => View.list DomainNode.toJson <$> Applications.systemTree id),
    plain "/system/application/next_id" "next_id"
      [(200, "Next free application id")]
      (View.nextId <$> Applications.nextId),
    plain "/system/application/get_all" "get_all"
      [(200, "Every application")]
      (View.list ApplicationWithTokens.toJson <$> Applications.getAll),
    reading "/system/application/create_application" "create_application" Body.application
      [(200, "Created application, no tokens yet"),
        (404, "Group not found"),
        (409, "Id or name taken")]
      (fun req => ApplicationWithTokens.toJson <$> Applications.create req),
    reading "/system/application/update_application" "update_application" Body.updateApplication
      [(200, "Updated application"),
        (404, "Application not found"),
        (409, "Id or name taken")]
      (fun req => ApplicationWithTokens.toJson <$> Applications.update req)]

/-- Bearer tokens. -/
def tokens : List Endpoint :=
  group "token" [
    reading "/system/token/create_token" "create_token" Body.createToken
      [(200, "The application with every token, the new one included"),
        (400, "Expire time below -1"),
        (404, "Application, group or domain not found")]
      (fun (appId, lifetime) => ApplicationWithTokens.toJson <$> Credentials.create appId lifetime),
    reading "/system/token/revoke_tokens" "revoke_tokens" Body.revokeTokens
      [(200, "Remaining tokens and deleted count"),
        (404, "Application not found")]
      (fun (appId, tokens) => View.revoked <$> Credentials.revoke appId tokens),
    reading "/system/token/revoke_tokens_for_app" "revoke_tokens_for_app" Body.appId
      [(200, "Application without tokens and deleted count"),
        (404, "Application not found")]
      (fun id => View.revoked <$> Credentials.revokeByAppId id),
    reading "/system/token/get_tokens_by_app_id" "get_tokens_by_app_id" Body.appId
      [(200, "Tokens of the application, newest first"),
        (404, "Application not found")]
      (fun id => View.list Token.toJson <$> Credentials.getByAppId id)]

/-- Application groups. -/
def groups : List Endpoint :=
  group "application-group" [
    reading "/system/application_group/create" "create" Body.group
      [(200, "Created group"),
        (404, "Domain not found"),
        (409, "Name taken in the domain")]
      (fun req => AppGroup.toJson <$> Groups.create req),
    reading "/system/application_group/update" "update" Body.group
      [(200, "Renamed group"),
        (400, "Missing id"),
        (404, "Group not found"),
        (409, "Name taken in the domain")]
      (fun req => AppGroup.toJson <$> Groups.update req),
    reading "/system/application_group/delete_list" "delete_list" Body.idList
      [(200, "Groups deleted"),
        (400, "Empty id list")]
      (fun ids => View.count <$> Groups.deleteList ids),
    reading "/system/application_group/get_by_id_list" "get_by_id_list" Body.idList
      [(200, "Matching groups")]
      (fun ids => View.list AppGroup.toJson <$> Groups.getByIdList ids),
    plain "/system/application_group/get_all" "get_all"
      [(200, "Every group")]
      (View.list AppGroup.toJson <$> Groups.getAll)]

/-- All operations. -/
def all : List Endpoint := secure ++ permissions ++ domains ++ applications ++ tokens ++ groups

end Endpoint

end Http
end AccessRegistry
