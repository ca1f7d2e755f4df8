import AccessRegistry.Config.Address
import AccessRegistry.Describe
import AccessRegistry.Text.Quoted

/-!
# AccessRegistry.Config.Settings

The settings of the service. All have defaults, so that no setting at all makes a service that keeps
its tables in memory.

* `Settings.check`    — the address to listen at, or the first flaw of the settings.
* `Settings.describe` — the settings in one line; secrets are left out.
-/

namespace AccessRegistry
namespace Config

inductive LogLevel where
  | debug
  | info
  | error
  | fatal
deriving DecidableEq, Repr

namespace LogLevel

def all : List LogLevel := [.debug, .info, .error, .fatal]

/-- The name by which the level is set. -/
def text : LogLevel → String
  | .debug => "debug"
  | .info => "info"
  | .error => "error"
  | .fatal => "fatal"

/-- The filter on messages; nothing is more severe than an error. -/
def filter : LogLevel → String
  | .debug => "debug"
  | .info => "info"
  | .error | .fatal => "error"

/-- The name in descriptions. -/
def describe : LogLevel → String
  | .debug => "Debug"
  | .info => "Info"
  | .error => "Error"
  | .fatal => "Fatal"

end LogLevel

inductive LogFormat where
  | text
  | json
deriving DecidableEq, Repr

namespace LogFormat

def all : List LogFormat := [.text, .json]

/-- The name by which the format is set. -/
def name : LogFormat → String
  | .text => "text"
  | .json => "json"

/-- The name in descriptions. -/
def describe : LogFormat → String
  | .text => "Text"
  | .json => "Json"

end LogFormat

/-- Where requests are awaited. -/
structure Listen where
  host : String := "0.0.0.0"
  port : Nat := 8080
deriving DecidableEq, Repr

/-- How to reach the database. -/
structure Database where
  host : String := "localhost"
  port : Nat := 5432
  username : String := "postgres"
  password : String := ""
  database : String := "postgres"
  /-- the schema that holds the tables -/
  schema : Option String := none
  maxConnections : Nat := 10
deriving DecidableEq, Repr

structure Settings where
  listen : Listen := {}
  database : Option Database := none
  logLevel : LogLevel := .info
  logFormat : LogFormat := .text
  /-- the token to set the registry up with -/
  initialAdminUiToken : String := ""
  metricsEnabled : Bool := true
  requestTimeoutSecs : Nat := 30
deriving DecidableEq, Repr

/-! ## Descriptions -/

open Describe (fields field)

def redacted : String := "[REDACTED]"

def describeOption (f : String → String) : Option String → String
  | none => "None"
  | some s => "Some(" ++ f s ++ ")"

def Listen.describe (l : Listen) : String :=
  fields "ListenConfig" [field "host" (Text.quoted l.host), field "port" (toString l.port)]

def Database.describe (d : Database) : String :=
  fields "DatabaseConfig"
    [field "host" (Text.quoted d.host), field "port" (toString d.port),
      field "username" (Text.quoted d.username), field "password" (Text.quoted redacted),
      field "database" (Text.quoted d.database),
      field "schema" (describeOption Text.quoted d.schema),
      field "max_connections" (toString d.maxConnections)]

def Settings.describe (s : Settings) : String :=
  let token := if s.initialAdminUiToken.isEmpty then "" else redacted
  fields "AppConfig"
    [field "listen" s.listen.describe,
      field "database" (describeOption (fun d => d) (s.database.map Database.describe)),
      field "log_level" s.logLevel.describe, field "log_format" s.logFormat.describe,
      field "baseline" (fields "BaselineConfig"
        [field "initial_admin_ui_token" (Text.quoted token)]),
      field "metrics" (fields "MetricsConfig"
        [field "enabled" (Describe.bool s.metricsEnabled)]),
      field "request_timeout_secs" (toString s.requestTimeoutSecs)]

/-! ## Checks -/

def isLetter (c : Char) : Bool := c.isAlpha || c == '_'

/-- Whether a text is a plain identifier: an ASCII letter or an underscore, then such and digits, 63
bytes at most. -/
def isIdentifier (s : String) : Bool :=
  match s.toList with
  | [] => false
  | c :: rest =>
    isLetter c && decide (s.utf8ByteSize ≤ 63) && rest.all fun x => isLetter x || x.isDigit

/-- What can be wrong with settings. -/
inductive Flaw where
  /-- the schema is no identifier; its name becomes part of a statement -/
  | schema (name : String)
  | noConnections
  | noTimeout
  /-- nobody can listen there -/
  | address (listen : Listen)
deriving DecidableEq, Repr

def Flaw.text : Flaw → String
  | .schema name => "database.schema " ++ Text.quoted name ++ " is not a valid identifier"
  | .noConnections => "database.maxConnections must be positive"
  | .noTimeout => "requestTimeoutSecs must be positive"
  | .address l =>
    "listen address " ++ l.host ++ ":" ++ toString l.port ++ ": invalid socket address syntax"

def Listen.address (l : Listen) : Except Flaw Address :=
  match HostAddress.ofText? l.host with
  | some host => .ok ⟨host, l.port⟩
  | none => .error (.address l)

def Database.check (d : Database) : Except Flaw Unit :=
  match d.schema.filter fun s => !isIdentifier s with
  | some s => .error (.schema s)
  | none => if d.maxConnections = 0 then .error .noConnections else .ok ()

/-- The address to listen at, if the settings have no flaw; else the first one. -/
def Settings.check (s : Settings) : Except Flaw Address := do
  if let some d := s.database then d.check
  if s.requestTimeoutSecs = 0 then throw .noTimeout
  s.listen.address

end Config
end AccessRegistry
