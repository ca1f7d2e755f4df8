import AccessRegistry.Config.CommandLine
import AccessRegistry.Config.File
import AccessRegistry.Config.FileTree

/-!
# AccessRegistry.Config.Load

The settings to run with. They come from the settings file, if one is named, and from the command
line, which wins; then they are checked.

* `load` — the settings and the address to listen at, or why there are none.
-/

namespace AccessRegistry
namespace Config

/-- Why there are no settings. -/
inductive LoadError where
  | commandLine (r : Refusal)
  /-- the file cannot be read, for that reason -/
  | unreadable (path : String) (reason : ReadError)
  /-- the file does not describe settings -/
  | malformed (path : String)
  | flawed (f : Flaw)
deriving DecidableEq, Repr

def LoadError.text : LoadError → String
  | .commandLine _ => "invalid command line"
  | .unreadable path reason => "failed to read config file " ++ path ++ ": " ++ reason.text
  | .malformed path => "failed to parse config file " ++ path
  | .flawed f => "invalid configuration: " ++ f.text

/-- The settings of the file at a path. -/
def fromFile (file : String → Except ReadError String) (path : String) :
    Except LoadError Settings := do
  match file path with
  | .error reason => throw (.unreadable path reason)
  | .ok text =>
    match Settings.ofYaml? text with
    | none => throw (.malformed path)
    | some s => return s

/-- Settings as the command line changes them. -/
def Arguments.override (a : Arguments) (s : Settings) : Settings :=
  { s with
    logLevel := a.logLevel.getD s.logLevel
    listen := { s.listen with port := a.port.getD s.listen.port } }

/-- Loads the settings. `place` is where the settings file is if the command line does not say it,
and `file` reads files. -/
def load (args : List String) (place : Option String) (file : String → Except ReadError String) :
    Except LoadError (Settings × Address) := do
  let a ← (Arguments.ofList args).mapError .commandLine
  let s ←
    match a.config.or place with
    | none => pure {}
    | some "" => throw (.commandLine .invalidValue)
    | some path => fromFile file path
  let s := a.override s
  let address ← s.check.mapError .flawed
  return (s, address)

end Config
end AccessRegistry
