import AccessRegistry.Config.Settings
import AccessRegistry.Text.Blank
import AccessRegistry.Yaml.Node

/-!
# AccessRegistry.Config.File

The settings file: a YAML mapping of settings and of sections of settings.

* `Settings.ofYaml?` — the settings that a text describes.

What is left out keeps its default, and unknown keys are passed over. A known key may be written
once only, with a value of its kind. An alias stands for the value with its anchor.
-/

namespace AccessRegistry
namespace Config

open Yaml (Node Properties Style Tag)

/-- A mapping with texts as keys. The values are no aliases. -/
abbrev Section := List (String × Node)

/-! ## Values -/

/-- Any single value is the text that it is written with. -/
def text? : Node → Option String
  | .scalar _ _ s => some s
  | _ => none

/-- The words for nothing. -/
def nullWords : List String := ["~", "null", "Null", "NULL"]

/-- Whether a value is left out on purpose: nothing or a word for it, without quotes. A tag makes a
value of it, except that of null, which asks for one of the words. -/
def isUnset? : Node → Option Bool
  | .scalar p .plain s =>
    match p.tag with
    | none => some (s.isEmpty || nullWords.contains s)
    | some t => if t = .null then if nullWords.contains s then some true else none else some false
  | _ => some false

def orUnset {α : Type} (read : Node → Option α) (n : Node) : Option (Option α) := do
  if ← isUnset? n then return none else return some (← read n)

/-- The text of a value that is no mere text: it is written without quotes, or as a block of lines
with a tag for its kind. -/
def wordOf? (kind : Tag) : Node → Option String
  | .scalar _ .plain s => some s
  | .scalar p .literal s => if p.tag = some kind then some s else none
  | _ => none

def switch? (n : Node) : Option Bool := do
  let s ← wordOf? .bool n
  if ["true", "True", "TRUE"].contains s then some true
  else if ["false", "False", "FALSE"].contains s then some false
  else none

/-- A natural number, in base ten or after `0x`, `0o` or `0b`. Zeros in front of other digits make
it a text. -/
def number? (cs : List Char) : Option Nat :=
  let cs :=
    match cs with
    | '+' :: rest => rest
    | cs => cs
  match cs with
  | '0' :: 'x' :: rest => Text.numeral? 16 rest
  | '0' :: 'o' :: rest => Text.numeral? 8 rest
  | '0' :: 'b' :: rest => Text.numeral? 2 rest
  | '0' :: _ :: _ => none
  | cs => Text.numeral? 10 cs

def numberBelow? (bound : Nat) (n : Node) : Option Nat := do
  (number? (← wordOf? .int n).toList).filter fun n => n < bound

/-- The name of a choice: a text, or a tag before nothing. -/
def choice? : Node → Option String
  | .scalar p style s =>
    match p.tag.bind Tag.ownName? with
    | none => some s
    | some name =>
      if style = .plain ∧ (s.isEmpty || nullWords.contains s) then some name else none
  | _ => none

def logLevel? (n : Node) : Option LogLevel := do
  let s ← choice? n
  LogLevel.all.find? fun l => l.text == s

def logFormat? (n : Node) : Option LogFormat := do
  let s ← choice? n
  LogFormat.all.find? fun f => f.name == s

/-! ## Sections -/

/-- A key has to be a text. -/
def keyed? (table : Node.Anchored) (e : Node × Node) : Option (String × Node) :=
  (text? (e.1.target table)).map fun key => (key, e.2.target table)

/-- A mapping; nothing at all is an empty one. -/
def section? (table : Node.Anchored) : Node → Option Section
  | .mapping _ entries => entries.mapM (keyed? table)
  | .scalar _ .plain "" => some []
  | _ => none

/-- The value under a key, or the default. -/
def Section.get {α : Type} (s : Section) (key : String) (default : α) (read : Node → Option α) :
    Option α :=
  match s.filter fun e => e.1 == key with
  | [] => some default
  | [(_, n)] => read n
  | _ => none

def listen? (table : Node.Anchored) (n : Node) : Option Listen := do
  let s ← section? table n
  let d : Listen := {}
  return { host := ← s.get "host" d.host text?
           port := ← s.get "port" d.port (numberBelow? UInt16.size) }

def database? (table : Node.Anchored) (n : Node) : Option Database := do
  let s ← section? table n
  let d : Database := {}
  return { host := ← s.get "host" d.host text?
           port := ← s.get "port" d.port (numberBelow? UInt16.size)
           username := ← s.get "username" d.username text?
           password := ← s.get "password" d.password text?
           database := ← s.get "database" d.database text?
           schema := ← s.get "schema" d.schema (orUnset text?)
           maxConnections := ← s.get "maxConnections" d.maxConnections (numberBelow? UInt32.size) }

def initialToken? (table : Node.Anchored) (n : Node) : Option String := do
  (← section? table n).get "initialAdminUiToken" "" text?

def metricsEnabled? (table : Node.Anchored) (n : Node) : Option Bool := do
  (← section? table n).get "enabled" true switch?

def settings? (table : Node.Anchored) (n : Node) : Option Settings := do
  let s ← section? table n
  let d : Settings := {}
  return { listen := ← s.get "listen" d.listen (listen? table)
           database := ← s.get "database" d.database (orUnset (database? table))
           logLevel := ← s.get "logLevel" d.logLevel logLevel?
           logFormat := ← s.get "logFormat" d.logFormat logFormat?
           initialAdminUiToken := ← s.get "baseline" d.initialAdminUiToken (initialToken? table)
           metricsEnabled := ← s.get "metrics" d.metricsEnabled (metricsEnabled? table)
           requestTimeoutSecs :=
             ← s.get "requestTimeoutSecs" d.requestTimeoutSecs (numberBelow? UInt64.size) }

/-- The settings of a file; a file without any content leaves all defaults. -/
def Settings.ofYaml? (s : String) : Option Settings := do
  if Text.isBlank s then return {}
  match ← Node.read? s with
  | none => return {}
  | some n => settings? n.anchored n

end Config
end AccessRegistry
