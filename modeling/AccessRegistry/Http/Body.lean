import AccessRegistry.Record.Codec
import AccessRegistry.Rules.Credentials
import AccessRegistry.Rules.Permissions

/-!
# AccessRegistry.Http.Body

The bodies of requests and of answers. The body of a request has a form, by which it is read, and
rules that a readable one has to keep.
-/

namespace AccessRegistry
namespace Http

open Json (Value Decoder)
open Json.Record (field required defaulting)

/-- The form of a body: its name, its fields, and its rules. -/
structure Body (α : Type) where
  name : String
  record : Json.Record α
  check : α → Except String Unit

namespace Body

/-- A form without further rules. -/
def plain {α : Type} (name : String) (record : Json.Record α) : Body α :=
  ⟨name, record, fun _ => .ok ()⟩

/-- Refuses a blank text. -/
def nonBlank (value what : String) : Except String Unit :=
  if Text.isBlank value then .error (what ++ " must not be blank") else .ok ()

def id : Body Int32 := plain "IdRequest" (required "id" .int32)

def idList : Body (List Int32) := plain "IdListRequest" (defaulting "idList" (.list .int32) [])

/-! ## Tokens and permissions -/

def authenticate : Body String := plain "AuthenticateRequest" (required "token" .string)

def authorize : Body (Int32 × String) :=
  plain "AuthorizeRequest" (Prod.mk <$> required "appId" .int32 <*> required "endpoint" .string)

def setOne : Body AccessList where
  name := "SetOneBody"
  record := AccessList.record
  check row := nonBlank row.method "method"

def methodEntry : Decoder MethodValue :=
  (MethodValue.mk <$> required "method" .string <*> required "value" .bool).decoder "MethodEntry"

def setList : Body SetListRequest where
  name := "SetListBody"
  record := SetListRequest.mk <$> required "appId" .int32 <*> defaulting "removeOld" .bool false
    <*> defaulting "methods" (.list methodEntry) []
  check req := req.methods.forM fun m => nonBlank m.method "method"

def deleteList : Body (Int32 × List String) :=
  plain "DeleteListBody"
    (Prod.mk <$> required "appId" .int32 <*> defaulting "methods" (.list .string) [])

def createToken : Body (Int32 × Int64) :=
  plain "CreateTokenBody"
    (Prod.mk <$> required "appId" .int32 <*> defaulting "expireTime" .int64 neverExpires)

def revokeTokens : Body (Int32 × List String) :=
  plain "RevokeTokensBody"
    (Prod.mk <$> required "appId" .int32 <*> defaulting "tokens" (.list .string) [])

def appId : Body Int32 := plain "AppIdRequest" (required "appId" .int32)

/-! ## Domains, groups and applications -/

def systemId : Body Int32 :=
  plain "SystemIdRequest" (defaulting "systemId" .int32 defaultSystemId)

def domain : Body DomainWrite where
  name := "DomainBody"
  record := DomainWrite.mk <$> defaulting "id" .int32 0 <*> required "name" .string
    <*> defaulting "description" .string "" <*> defaulting "systemId" .int32 defaultSystemId
  check req := nonBlank req.name "name"

def group : Body GroupWrite where
  name := "AppGroupBody"
  record := GroupWrite.mk <$> defaulting "id" .int32 0 <*> required "name" .string
    <*> defaulting "description" .string "" <*> defaulting "domainId" (.optional .int32) none
  check req := nonBlank req.name "name"

def serviceId : Body Int32 :=
  plain "ServiceIdRequest" (field "serviceId" .int32 none ["applicationGroupId"])

def token : Body String := plain "TokenRequest" (required "token" .string)

def systemTree : Body Int32 :=
  plain "SystemTreeRequest" (defaulting "systemId" .int32 defaultSystemId)

def application : Body NewApplication where
  name := "ApplicationBody"
  record := NewApplication.mk <$> defaulting "id" .int32 0 <*> required "name" .string
    <*> defaulting "description" .string ""
    <*> field "applicationGroupId" .int32 none ["serviceId"]
    <*> required "type" ApplicationType.decoder
  check req := nonBlank req.name "name"

def updateApplication : Body ApplicationUpdate where
  name := "UpdateApplicationBody"
  record := ApplicationUpdate.mk <$> required "oldId" .int32 <*> required "newId" .int32
    <*> required "name" .string <*> defaulting "description" .string ""
  check req := do
    nonBlank req.name "name"
    if req.newId ≤ 0 then throw "newId must be positive"

end Body

/-! ## Bodies of answers -/

namespace View

def count (n : Nat) : Value := .object [("count", .ofNat n)]

def nextId (id : Int32) : Value := .object [("id", .ofInt id.toInt)]

def list {α : Type} (toJson : α → Value) (rows : List α) : Value := .array (rows.map toJson)

/-- A permission without its application, which the caller named. -/
def methodEntry (a : AccessList) : Value :=
  .object [("method", .string a.method), ("value", .bool a.value)]

def revoked (r : RevokeOutcome) : Value :=
  .object [("application", r.app.toJson), ("deleted", .ofNat r.deleted)]

def authData (d : AuthData) : Value :=
  .object [("systemId", .ofInt d.systemId.toInt), ("domainId", .ofInt d.domainId.toInt),
    ("serviceId", .ofInt d.applicationGroupId.toInt), ("applicationId", .ofInt d.appId.toInt),
    ("appName", .string d.appName)]

def decision (d : Decision) : Value :=
  match d with
  | .authenticated data => .object [("authenticated", .bool true), ("authData", authData data)]
  | d =>
    .object (("authenticated", .bool false) ::
      match d.errorReason with
      | some reason => [("errorReason", .string reason)]
      | none => [])

def authorized (allowed : Bool) : Value := .object [("authorized", .bool allowed)]

end View

end Http
end AccessRegistry
