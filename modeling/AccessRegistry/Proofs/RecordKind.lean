import AccessRegistry.Record.Codec

/-!
# AccessRegistry.Proofs.RecordKind

The kinds of records that have a JSON form, each with its writer, its reader and the times that its
records hold.
-/

namespace AccessRegistry

/-! ## Times of records -/

def Domain.times (d : Domain) : List Instant := [d.createdAt, d.updatedAt]

def AppGroup.times (g : AppGroup) : List Instant := [g.createdAt, g.updatedAt]

def Application.times (a : Application) : List Instant := [a.createdAt, a.updatedAt]

def ApplicationWithTokens.times (a : ApplicationWithTokens) : List Instant :=
  a.app.times ++ a.tokens.map Token.createdAt

def ServiceNode.times (s : ServiceNode) : List Instant :=
  s.group.times ++ s.apps.flatMap Application.times

def DomainNode.times (d : DomainNode) : List Instant :=
  d.domain.times ++ d.services.flatMap ServiceNode.times

/-! ## Kinds -/

inductive RecordKind where
  | domain
  | appGroup
  | application
  | applicationType
  | token
  | accessList
  | authData
  | applicationWithTokens
  | serviceNode
  | domainNode
deriving DecidableEq, Repr

namespace RecordKind

/-- The records of a kind. -/
@[reducible]
def Carrier : RecordKind → Type
  | domain => Domain
  | appGroup => AppGroup
  | application => Application
  | applicationType => ApplicationType
  | token => Token
  | accessList => AccessList
  | authData => AuthData
  | applicationWithTokens => ApplicationWithTokens
  | serviceNode => ServiceNode
  | domainNode => DomainNode

def toJson : (k : RecordKind) → k.Carrier → Json.Value
  | domain => Domain.toJson
  | appGroup => AppGroup.toJson
  | application => Application.toJson
  | applicationType => ApplicationType.toJson
  | token => Token.toJson
  | accessList => AccessList.toJson
  | authData => AuthData.toJson
  | applicationWithTokens => ApplicationWithTokens.toJson
  | serviceNode => ServiceNode.toJson
  | domainNode => DomainNode.toJson

def decoder : (k : RecordKind) → Json.Decoder k.Carrier
  | domain => Domain.decoder
  | appGroup => AppGroup.decoder
  | application => Application.decoder
  | applicationType => ApplicationType.decoder
  | token => Token.decoder
  | accessList => AccessList.decoder
  | authData => AuthData.decoder
  | applicationWithTokens => ApplicationWithTokens.decoder
  | serviceNode => ServiceNode.decoder
  | domainNode => DomainNode.decoder

/-- All times that a record holds, those of the records in it included. -/
def times : (k : RecordKind) → k.Carrier → List Instant
  | domain => Domain.times
  | appGroup => AppGroup.times
  | application => Application.times
  | applicationType => fun _ => []
  | token => fun t => [t.createdAt]
  | accessList => fun _ => []
  | authData => fun d => [d.createdAt]
  | applicationWithTokens => ApplicationWithTokens.times
  | serviceNode => ServiceNode.times
  | domainNode => DomainNode.times

/-- The text of a record. -/
def encode (k : RecordKind) (v : k.Carrier) : String := (k.toJson v).text

/-- The record that a text holds. -/
def decode (k : RecordKind) (s : String) : Except Json.Problem k.Carrier :=
  Json.decode k.decoder (Json.Source.ofString s)

end RecordKind
end AccessRegistry
