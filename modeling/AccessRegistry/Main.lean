import AccessRegistry.Config.Load

/-!
# AccessRegistry.Main

The command line. It loads the settings that the arguments and the settings file make and tells what
the service would run with.
-/

namespace AccessRegistry
namespace Main

open Config

/-- The variable that names the settings file if no argument does. -/
def fileVariable : String := "ISP_CONFIG"

def help : String :=
  "Usage: isp-system-service [OPTIONS]\n\n" ++
  "Options:\n" ++
  "      --config <CONFIG>        Path to the YAML configuration file\n" ++
  "      --log-level <LOG_LEVEL>  Override the level: debug, info, error or fatal\n" ++
  "      --port <PORT>            Override the port to listen at\n" ++
  "  -h, --help                   Print help\n" ++
  "  -V, --version                Print version"

def version : String := "isp-system-service 0.1.0"

/-- The reason why a file cannot be read, by the number that the system gives it. -/
def readError (e : IO.Error) : ReadError :=
  match e with
  | .noFileOrDirectory .. => .missing
  | .inappropriateType _ code _ =>
    if code = 20 then .notADirectory else .isADirectory
  | e => .other (toString e)

/-- The text of a settings file, or the reason why it cannot be read. -/
def readFile (path : String) : IO (Except ReadError String) := do
  try return .ok (← IO.FS.readFile path)
  catch e => return .error (readError e)

/-- The file to read for some arguments. -/
def fileOf (args : List String) (place : Option String) : Option String :=
  match Arguments.ofList args with
  | .ok a => a.config.or place
  | .error _ => none

end Main
end AccessRegistry

open AccessRegistry Config in
/-- Prints the settings and the address, or on the error output why there are none. -/
def main (args : List String) : IO UInt32 := do
  let place ← IO.getEnv Main.fileVariable
  let content ←
    match Main.fileOf args place with
    | some path => Main.readFile path
    | none => pure (.error .missing)
  match load args place fun _ => content with
  | .ok (s, address) =>
    IO.println s.describe
    IO.println ("listening on " ++ address.text)
    return 0
  | .error (.commandLine (.asked .help)) =>
    IO.println Main.help
    return 0
  | .error (.commandLine (.asked .version)) =>
    IO.println Main.version
    return 0
  | .error e =>
    IO.eprintln ("error: " ++ e.text)
    return match e with
      | .commandLine _ => 2
      | _ => 1
