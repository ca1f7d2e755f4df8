import AccessRegistry.Record.Views
import AccessRegistry.Instant.Rfc3339
import AccessRegistry.Json.Decoder
import AccessRegistry.Json.Printer

/-!
# AccessRegistry.Record.Codec

The JSON form of the records: `toJson` writes a record, `decoder` reads it. A description may be
left out, and the group of an application is also read under the name `serviceId`.
-/

namespace AccessRegistry

open Json (Value Document Problem Decoder unfit mismatch)
open Json.Record (field required defaulting)

/-! ## Plain values -/

def Instant.toJson (t : Instant) : Value := .string t.text

def Instant.decoder : Decoder Instant
  | .string (some s) =>
    match Instant.ofText? s with
    | some t => .ok t
    | none => .error (unfit .invalidTimestamp)
  | d => .error (mismatch "an RFC 3339 formatted date and time string" d)

namespace ApplicationType

def toJson (t : ApplicationType) : Value := .string t.text

/-- The type of that name. -/
def ofName (name : String) : Except Problem ApplicationType :=
  match all.find? fun t => t.text == name with
  | some t => .ok t
  | none => .error (unfit (.unknownVariant name (all.map text)))

/-- A name, or an object with the name as its only member and nothing in it. -/
def decoder : Decoder ApplicationType
  | .string (some s) => ofName s
  | .object ((some key, d) :: rest) whole => do
    let t ← ofName key
    match d with
    | .null => if whole && rest.isEmpty then return t else throw .malformed
    | d => throw ((mismatch "unit" d).under (.key key))
  | _ => .error .malformed

/-- The same among the members of a larger object, where values are read before their type is
known. -/
def memberDecoder : Decoder ApplicationType
  | .string (some s) => ofName s
  | .object [(some key, d)] true => do
    let t ← ofName key
    match d with
    | .null => return t
    | .object [] true => return t
    | d => throw (mismatch "unit" d)
  | .object _ _ => .error (unfit (.invalidValue .map "map with a single key"))
  | d => .error (mismatch "string or map" d)

end ApplicationType

/-! ## Records -/

namespace Domain

def members (d : Domain) : List (String × Value) :=
  [("id", .ofInt d.id.toInt), ("name", .string d.name), ("description", .string d.description),
    ("systemId", .ofInt d.systemId.toInt), ("createdAt", d.createdAt.toJson),
    ("updatedAt", d.updatedAt.toJson)]

def toJson (d : Domain) : Value := .object d.members

def record : Json.Record Domain :=
  Domain.mk <$> required "id" .int32 <*> required "name" .string
    <*> defaulting "description" .string "" <*> required "systemId" .int32
    <*> required "createdAt" Instant.decoder <*> required "updatedAt" Instant.decoder

def decoder : Decoder Domain := record.decoder "Domain"

end Domain

namespace AppGroup

def members (g : AppGroup) : List (String × Value) :=
  [("id", .ofInt g.id.toInt), ("name", .string g.name), ("description", .string g.description),
    ("domainId", .ofInt g.domainId.toInt), ("createdAt", g.createdAt.toJson),
    ("updatedAt", g.updatedAt.toJson)]

def toJson (g : AppGroup) : Value := .object g.members

def record : Json.Record AppGroup :=
  AppGroup.mk <$> required "id" .int32 <*> required "name" .string
    <*> defaulting "description" .string "" <*> required "domainId" .int32
    <*> required "createdAt" Instant.decoder <*> required "updatedAt" Instant.decoder

def decoder : Decoder AppGroup := record.decoder "AppGroup"

end AppGroup

namespace Application

def members (a : Application) : List (String × Value) :=
  [("id", .ofInt a.id.toInt), ("name", .string a.name), ("description", .string a.description),
    ("applicationGroupId", .ofInt a.applicationGroupId.toInt), ("type", a.type.toJson),
    ("createdAt", a.createdAt.toJson), ("updatedAt", a.updatedAt.toJson)]

def toJson (a : Application) : Value := .object a.members

/-- The fields, with the reader of the type to use. -/
def record (type : Decoder ApplicationType) : Json.Record Application :=
  Application.mk <$> required "id" .int32 <*> required "name" .string
    <*> defaulting "description" .string ""
    <*> field "applicationGroupId" .int32 none ["serviceId"] <*> required "type" type
    <*> required "createdAt" Instant.decoder <*> required "updatedAt" Instant.decoder

def decoder : Decoder Application := (record ApplicationType.decoder).decoder "Application"

end Application

namespace Token

def toJson (t : Token) : Value :=
  .object [("token", .string t.token), ("appId", .ofInt t.appId.toInt),
    ("expireTime", .ofInt t.expireTime.toInt), ("createdAt", t.createdAt.toJson)]

def record : Json.Record Token :=
  Token.mk <$> required "token" .string <*> required "appId" .int32
    <*> required "expireTime" .int64 <*> required "createdAt" Instant.decoder

def decoder : Decoder Token := record.decoder "Token"

end Token

namespace AccessList

def toJson (a : AccessList) : Value :=
  .object [("appId", .ofInt a.appId.toInt), ("method", .string a.method), ("value", .bool a.value)]

def record : Json.Record AccessList :=
  AccessList.mk <$> required "appId" .int32 <*> required "method" .string
    <*> required "value" .bool

def decoder : Decoder AccessList := record.decoder "AccessList"

end AccessList

namespace AuthData

def toJson (d : AuthData) : Value :=
  .object [("appId", .ofInt d.appId.toInt), ("appName", .string d.appName),
    ("applicationGroupId", .ofInt d.applicationGroupId.toInt),
    ("domainId", .ofInt d.domainId.toInt), ("systemId", .ofInt d.systemId.toInt),
    ("expireTime", .ofInt d.expireTime.toInt), ("createdAt", d.createdAt.toJson)]

def record : Json.Record AuthData :=
  AuthData.mk <$> required "appId" .int32 <*> required "appName" .string
    <*> required "applicationGroupId" .int32 <*> required "domainId" .int32
    <*> required "systemId" .int32 <*> required "expireTime" .int64
    <*> required "createdAt" Instant.decoder

def decoder : Decoder AuthData := record.decoder "AuthData"

end AuthData

/-! ## Views -/

namespace ApplicationWithTokens

def toJson (a : ApplicationWithTokens) : Value :=
  .object (a.app.members ++ [("tokens", .array (a.tokens.map Token.toJson))])

/-- The fields of the application lie beside `tokens`. -/
def decoder : Decoder ApplicationWithTokens :=
  Json.Record.flattened "ApplicationWithTokens" 1
    (Application.record ApplicationType.memberDecoder)
    (required "tokens" (.list Token.decoder)) ApplicationWithTokens.mk

end ApplicationWithTokens

namespace ServiceNode

def toJson (s : ServiceNode) : Value :=
  .object (s.group.members ++ [("apps", .array (s.apps.map Application.toJson))])

/-- The fields of the group lie beside `apps`, in an object within a list within an object. -/
def decoder : Decoder ServiceNode :=
  Json.Record.flattened "ServiceNode" 3 AppGroup.record
    (required "apps" (.list Application.decoder)) ServiceNode.mk

end ServiceNode

namespace DomainNode

def toJson (d : DomainNode) : Value :=
  .object (d.domain.members ++ [("services", .array (d.services.map ServiceNode.toJson))])

/-- The fields of the domain lie beside `services`. -/
def decoder : Decoder DomainNode :=
  Json.Record.flattened "DomainNode" 1 Domain.record
    (required "services" (.list ServiceNode.decoder)) DomainNode.mk

end DomainNode

end AccessRegistry
