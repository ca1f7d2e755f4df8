import AccessRegistry.Config.Settings
import AccessRegistry.Text.Numeral

/-!
# AccessRegistry.Config.CommandLine

The command line: `--config`, `--log-level` and `--port`, each with a value in the next argument or
after `=`, and the questions `--help`, `-h`, `--version` and `-V`.

* `Arguments.ofList` — what a list of arguments sets, or why it is refused.

The value of an option in the next argument is looked at when the next known option or the end of
the list is reached; an argument that nobody knows is refused before that.
-/

namespace AccessRegistry
namespace Config

inductive Flag where
  | config
  | logLevel
  | port
deriving DecidableEq, Repr

/-- What stands on the command line without a value. -/
inductive Question where
  | help
  | version
deriving DecidableEq, Repr

/-- Why a command line sets nothing. -/
inductive Refusal where
  | unknownArgument
  /-- the value of an option is missing, empty or not one of those it can have -/
  | invalidValue
  /-- the value is no port -/
  | notAPort
  | givenTwice
  /-- a value after an argument that takes none -/
  | needlessValue
  /-- the question is to be answered instead -/
  | asked (q : Question)
deriving DecidableEq, Repr

structure Arguments where
  config : Option String := none
  logLevel : Option LogLevel := none
  port : Option Nat := none
deriving DecidableEq, Repr

/-- An integer with an optional sign, if it is a port. -/
def port? (s : String) : Option Nat :=
  match s.toList with
  | '-' :: digits => (Text.numeral? 10 digits).filter (· = 0)
  | '+' :: digits => (Text.numeral? 10 digits).filter (· < UInt16.size)
  | digits => (Text.numeral? 10 digits).filter (· < UInt16.size)

namespace Arguments

def isSet (a : Arguments) : Flag → Bool
  | .config => a.config.isSome
  | .logLevel => a.logLevel.isSome
  | .port => a.port.isSome

/-- Gives an option its value. -/
def set (a : Arguments) (f : Flag) (value : String) : Except Refusal Arguments :=
  if a.isSet f then .error .givenTwice
  else
    match f with
    | .config =>
      if value.isEmpty then .error .invalidValue else .ok { a with config := some value }
    | .logLevel =>
      match LogLevel.all.find? fun l => l.text == value with
      | some l => .ok { a with logLevel := some l }
      | none => .error .invalidValue
    | .port =>
      match port? value with
      | some p => .ok { a with port := some p }
      | none => .error .notAPort

/-- An option that was met, with the argument after it if that one is there already. -/
abbrev Pending := Option (Flag × Option String)

/-- Gives the option that waits its value. -/
def settle (a : Arguments) : Pending → Except Refusal Arguments
  | none => .ok a
  | some (_, none) => .error .invalidValue
  | some (f, some value) => a.set f value

/-- How an argument looks. -/
inductive Form where
  /-- `--`, after which nothing is an option -/
  | terminator
  /-- `--name` or `--name=value` -/
  | long (name : String) (value : Option String)
  /-- a dash and letters -/
  | short (first : Char)
  | word

def Form.of (s : String) : Form :=
  match s.toList with
  | ['-', '-'] => .terminator
  | '-' :: '-' :: cs =>
    let value :=
      match cs.dropWhile (· != '=') with
      | [] => none
      | _ :: v => some (String.ofList v)
    .long (String.ofList (cs.takeWhile (· != '='))) value
  | '-' :: c :: _ => .short c
  | _ => .word

def flag? (name : String) : Option Flag :=
  match name with
  | "config" => some .config
  | "log-level" => some .logLevel
  | "port" => some .port
  | _ => none

def question? (name : String) : Option Question :=
  match name with
  | "help" => some .help
  | "version" => some .version
  | _ => none

def shortQuestion? (c : Char) : Option Question :=
  match c with
  | 'h' => some .help
  | 'V' => some .version
  | _ => none

/-- A question is asked, once the option before it has its value. -/
def ask (a : Arguments) (p : Pending) (q : Question) : Except Refusal Arguments := do
  let _ ← a.settle p
  throw (.asked q)

/-- Reads the arguments after those that set `a`. -/
def read (a : Arguments) (p : Pending) : List String → Except Refusal Arguments
  | [] => a.settle p
  | s :: rest =>
    match Form.of s with
    | .terminator => if rest.isEmpty then a.settle p else .error .unknownArgument
    | .long name value =>
      match flag? name, question? name, value with
      | some f, _, some v => do read (← (← a.settle p).set f v) none rest
      | some f, _, none => do read (← a.settle p) (some (f, none)) rest
      | none, some _, some _ => .error .needlessValue
      | none, some q, none => a.ask p q
      | none, none, _ => .error .unknownArgument
    | .short c =>
      match shortQuestion? c with
      | some q => a.ask p q
      | none => .error .unknownArgument
    | .word =>
      match p with
      | some (f, none) => read a (some (f, some s)) rest
      | _ => .error .unknownArgument

def ofList (args : List String) : Except Refusal Arguments := read {} none args

end Arguments

end Config
end AccessRegistry
