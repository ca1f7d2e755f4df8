/-!
# AccessRegistry.Http.MediaType

Media types as a `Content-Type` header names them: type, subtype, an optional suffix after a plus
sign, and parameters.
-/

namespace AccessRegistry
namespace Http

/-- A media type in lower case, without its parameters. -/
structure MediaType where
  type : String
  subtype : String
  suffix : Option String
deriving DecidableEq, Repr

namespace MediaType

/-- The characters of names and of values without quotes. -/
def isTokenChar (c : Char) : Bool :=
  c.isAlphanum || "!#$%&'*+-.^_`|~".toList.contains c

/-- The characters that go on with a value between quotes. -/
def isQuotedChar (c : Char) : Bool :=
  decide (0x20 ≤ c.toNat) && decide (c.toNat ≤ 0x7E) && c != '"'

/-- What comes after the quote that ends a value: blanks, then the end or the next parameter. -/
def afterQuoted : List Char → Option (List Char)
  | [] => some []
  | ';' :: rest => some rest
  | ' ' :: rest => afterQuoted rest
  | _ => none

/-- What comes after a value between quotes, without the opening one. It holds a character at least,
and the first may be a quote itself. -/
def afterQuotedValue : List Char → Option (List Char)
  | [] => none
  | first :: rest =>
    if first == '"' || isQuotedChar first then
      match rest.dropWhile isQuotedChar with
      | '"' :: after => afterQuoted after
      | _ => none
    else none

/-- What comes after a parameter. -/
def afterParameter (cs : List Char) : Option (List Char) :=
  let name := cs.takeWhile fun c => isTokenChar c
  match cs.dropWhile (fun c => isTokenChar c), name with
  | _, [] => none
  | '=' :: '"' :: rest, _ => afterQuotedValue rest
  | '=' :: rest, _ =>
    match rest.dropWhile (fun c => isTokenChar c), rest.takeWhile (fun c => isTokenChar c) with
    | [], _ => some []
    | ';' :: after, _ :: _ => some after
    | _, _ => none
  | _, _ => none

/-- Whether a text is a list of at most `fuel` parameters and blanks. -/
def areParameters : Nat → List Char → Bool
  | _, [] => true
  | 0, _ => false
  | fuel + 1, ' ' :: rest => areParameters fuel rest
  | fuel + 1, cs =>
    match afterParameter cs with
    | some rest => areParameters fuel rest
    | none => false

/-- The text before the last plus sign that is not at the front, and the text after it. -/
def splitSuffix (cs : List Char) : List Char × Option (List Char) :=
  match cs.reverse.dropWhile (· != '+') with
  | '+' :: front :: rest =>
    ((front :: rest).reverse, some ((cs.reverse.takeWhile (· != '+')).reverse))
  | _ => (cs, none)

/-- Reads the text of a header. -/
def ofText? (s : String) : Option MediaType := do
  let cs := s.toList
  let type := cs.takeWhile isTokenChar
  let subtype ←
    match cs.drop type.length with
    | '/' :: rest => some rest
    | _ => none
  let name := subtype.takeWhile isTokenChar
  if type.isEmpty || name.isEmpty then none
  let wellFormed :=
    match subtype.drop name.length with
    | [] => true
    | ';' :: rest => areParameters rest.length rest
    | _ => false
  if !wellFormed then none
  let (front, suffix) := splitSuffix name
  let lower (x : List Char) := (String.ofList x).toLower
  return ⟨lower type, lower front, suffix.map lower⟩

/-- Whether the type stands for JSON. -/
def isJson (m : MediaType) : Bool :=
  m.type == "application" && (m.subtype == "json" || m.suffix == some "json")

end MediaType
end Http
end AccessRegistry
