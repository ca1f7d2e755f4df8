import AccessRegistry.Instant.Basic
import AccessRegistry.Failure
import AccessRegistry.Text.Quoted

/-!
# AccessRegistry.Record.Basic

The records of the registry. One system owns domains, domains own application groups, groups own
applications, and applications own tokens and permissions.

| record       | unique by                 |
|--------------|---------------------------|
| domain       | id; name and system       |
| group        | id; name and domain       |
| application  | id; name and group        |
| token        | token string              |
| permission   | application and method    |

A token is live until its lifetime has elapsed: `lifetimeElapsed` compares in whole milliseconds,
and the last millisecond still counts.
-/

namespace AccessRegistry

/-- The only system. -/
def defaultSystemId : Int32 := 1

/-- The domain of groups that name none. -/
def defaultDomainId : Int32 := 1

/-- The lifetime of tokens that never expire. -/
def neverExpires : Int64 := -1

structure Domain where
  id : Int32
  name : String
  description : String
  systemId : Int32
  createdAt : Instant
  updatedAt : Instant
deriving DecidableEq, Repr

structure AppGroup where
  id : Int32
  name : String
  description : String
  domainId : Int32
  createdAt : Instant
  updatedAt : Instant
deriving DecidableEq, Repr

/-- What kind of client an application is. -/
inductive ApplicationType where
  | system
  | mobile
deriving DecidableEq, Repr

namespace ApplicationType

def text : ApplicationType → String
  | .system => "SYSTEM"
  | .mobile => "MOBILE"

def all : List ApplicationType := [.system, .mobile]

def ofText (s : String) : Except Failure ApplicationType :=
  match all.find? fun t => t.text == s with
  | some t => .ok t
  | none => .error (.invalidArgument ("unknown application type " ++ Text.quoted s))

end ApplicationType

structure Application where
  id : Int32
  name : String
  description : String
  applicationGroupId : Int32
  type : ApplicationType
  createdAt : Instant
  updatedAt : Instant
deriving DecidableEq, Repr

/-- An application to be stored; its times are set when it is. -/
structure NewApplication where
  id : Int32
  name : String
  description : String
  applicationGroupId : Int32
  type : ApplicationType
deriving DecidableEq, Repr

/-- A bearer token. Its lifetime is in milliseconds. -/
structure Token where
  token : String
  appId : Int32
  expireTime : Int64
  createdAt : Instant
deriving DecidableEq, Repr

/-- Whether an application may call a method. -/
structure AccessList where
  appId : Int32
  method : String
  value : Bool
deriving DecidableEq, Repr

/-- The identity that a token stands for. -/
structure AuthData where
  appId : Int32
  appName : String
  applicationGroupId : Int32
  domainId : Int32
  systemId : Int32
  expireTime : Int64
  createdAt : Instant
deriving DecidableEq, Repr

/-- The sum, held within the range of signed words of 64 bits. -/
def saturatingAdd (a b : Int) : Int :=
  max (-0x8000000000000000) (min 0x7FFFFFFFFFFFFFFF (a + b))

/-- Whether a lifetime that began at `createdAt` is over at `now`. -/
def lifetimeElapsed (createdAt : Instant) (lifetime : Int64) (now : Instant) : Bool :=
  if lifetime = neverExpires then false
  else decide (saturatingAdd createdAt.millis lifetime.toInt < now.millis)

def Token.isExpiredAt (t : Token) (now : Instant) : Bool :=
  lifetimeElapsed t.createdAt t.expireTime now

def AuthData.isExpiredAt (d : AuthData) (now : Instant) : Bool :=
  lifetimeElapsed d.createdAt d.expireTime now

end AccessRegistry
