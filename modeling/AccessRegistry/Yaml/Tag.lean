import AccessRegistry.Text.Numeral
import AccessRegistry.Text.Utf8
import AccessRegistry.Yaml.Scalar

/-!
# AccessRegistry.Yaml.Tag

What a YAML document calls its nodes: tags for their kinds, and anchors, by which aliases repeat
them. Lines before a document, called directives, tell its version and shorten tags.

* `Tag.read?`   — a tag as it is written: `!name`, `!handle!name`, or in full between `!<` and `>`.
* `Names`       — what is declared so far.
* `anchorName?` — the name of an anchor or an alias.
-/

namespace AccessRegistry
namespace Yaml

/-- The characters of names. -/
def isNameChar (c : Char) : Bool := c.isAlphanum || c == '_' || c == '-'

/-! ## Tags -/

/-- The octets of a tag; what is no ASCII character is written with a percent sign and two digits. -/
structure Tag where
  octets : List UInt8
deriving DecidableEq, Repr

namespace Tag

def ofText (s : String) : Tag := ⟨s.toUTF8.data.toList⟩

/-- What the tags of the common kinds begin with. -/
def common : Tag := .ofText "tag:yaml.org,2002:"

def append (t : Tag) (octets : List UInt8) : Tag := ⟨t.octets ++ octets⟩

def null : Tag := common.append (ofText "null").octets

def bool : Tag := common.append (ofText "bool").octets

def int : Tag := common.append (ofText "int").octets

/-- The tag `!`, which says no more than that a text is a text. -/
def nonspecific : Tag := ofText "!"

/-- The name of a kind that is known to the reader of the document only. -/
def ownName? (t : Tag) : Option String :=
  match t.octets with
  | 0x21 :: rest => ((Text.decodeUtf8 rest).mapM id).map String.ofList
  | _ => none

/-- The characters of tags. Some punctuation is kept for tags that are written in full. -/
def isChar (full : Bool) (c : Char) : Bool :=
  isNameChar c || ";/?:@&=+$.!~*'()".toList.contains c || (full && ",[]".toList.contains c)

/-- The number of octets after the first one of a character. -/
def more? (octet : UInt8) : Option Nat :=
  let n := octet.toNat
  if n < 0x80 then some 0
  else if n / 32 = 6 then some 1
  else if n / 16 = 14 then some 2
  else if n / 8 = 30 then some 3
  else none

/-- The octets of a tag at the front, and what follows them; `left` octets of a character are still
to come. -/
def octetsFrom (full : Bool) : Nat → List Char → Option (List UInt8 × List Char)
  | left, '%' :: a :: b :: rest => do
    let octet := UInt8.ofNat ((← Text.digitValue? 16 a) * 16 + (← Text.digitValue? 16 b))
    let left ←
      match left with
      | 0 => more? octet
      | n + 1 => (Text.continuation? octet).map fun _ => n
    let (octets, rest) ← octetsFrom full left rest
    return (octet :: octets, rest)
  | 0, c :: rest =>
    if isChar full c then do
      let (octets, rest) ← octetsFrom full 0 rest
      return (c.toUInt8 :: octets, rest)
    else some ([], c :: rest)
  | 0, [] => some ([], [])
  | _ + 1, _ => none

/-- The octets of a tag at the front, of which there has to be one; an octet zero ends them early. -/
def octets? (full : Bool) (cs : List Char) : Option (List UInt8 × List Char) := do
  let (octets, rest) ← octetsFrom full 0 cs
  if octets.isEmpty then none
  return (octets.takeWhile (· != 0), rest)

/-- Tags that handles stand for. -/
abbrev Handles := List (String × Tag)

/-- The handles that need no declaration. -/
def handles : Handles := [("!", nonspecific), ("!!", common)]

/-- Reads a tag after its first exclamation mark. -/
def read? (hs : Handles) (cs : List Char) : Option (Tag × List Char) :=
  let name := cs.takeWhile isNameChar
  match cs, cs.drop name.length with
  | '<' :: rest, _ => do
    match ← octets? true rest with
    | (octets, '>' :: rest) => return (⟨octets⟩, rest)
    | _ => none
  | _, '!' :: rest => do
    let (octets, rest) ← octets? false rest
    let tag ← hs.lookup ("!" ++ String.ofList name ++ "!")
    return (tag.append octets, rest)
  | cs, _ => do
    let (octets, rest) ← octetsFrom false 0 cs
    match octets.takeWhile (· != 0) with
    | [] => return (nonspecific, rest)
    | octets => return ((← hs.lookup "!").append octets, rest)

end Tag

/-! ## Declarations -/

/-- What is declared so far. -/
structure Names where
  /-- whether the version of the language has been told -/
  versionKnown : Bool := false
  /-- the handles that directives declare -/
  handles : Tag.Handles := []
  /-- the anchors and their numbers -/
  anchors : List (String × Nat) := []

namespace Names

/-- The tags of all handles; a declared one comes first. -/
def allHandles (n : Names) : Tag.Handles := n.handles ++ Tag.handles

/-- Declares an anchor. Its number is the count of names before it, its own among them if it was
declared already; the next new name then gets the same number. -/
def addAnchor (n : Names) (name : String) : Nat × Names :=
  let number := n.anchors.length
  (number, { n with anchors := (name, number) :: n.anchors.filter (·.1 != name) })

/-- A number of a version, of at most nine digits. -/
def versionNumber? (cs : List Char) : Option (Nat × List Char) := do
  let digits := cs.takeWhile (·.isDigit)
  if 9 < digits.length then none
  return (← Text.numeral? 10 digits, cs.drop digits.length)

/-- The version that a directive tells; there are 1.1 and 1.2. -/
def version? (n : Names) (cs : List Char) : Option (Names × List Char) := do
  let (major, cs) ← versionNumber? (cs.dropWhile isBlank)
  match cs with
  | '.' :: cs =>
    let (minor, cs) ← versionNumber? cs
    if n.versionKnown || major != 1 || (minor != 1 && minor != 2) then none
    return ({ n with versionKnown := true }, cs)
  | _ => none

/-- A handle at the front: a name between exclamation marks, or one such mark. -/
def handle? : List Char → Option (String × List Char)
  | '!' :: cs =>
    let name := cs.takeWhile isNameChar
    match name, cs.drop name.length with
    | _, '!' :: rest => some ("!" ++ String.ofList name ++ "!", rest)
    | [], rest => some ("!", rest)
    | _, _ => none
  | _ => none

/-- The handle that a directive declares; no handle is declared twice. -/
def declaration? (n : Names) (cs : List Char) : Option (Names × List Char) := do
  let (handle, cs) ← handle? (cs.dropWhile isBlank)
  if !cs.head?.any isBlank then none
  let (octets, cs) ← Tag.octets? true (cs.dropWhile isBlank)
  if !atBoundary cs || n.handles.any (·.1 == handle) then none
  return ({ n with handles := (handle, ⟨octets⟩) :: n.handles }, cs)

/-- Reads a directive after its percent sign. A comment may end the line. -/
def directive? (n : Names) (cs : List Char) : Option (Names × List Char) := do
  let word := cs.takeWhile isNameChar
  let cs := cs.drop word.length
  if !atBoundary cs then none
  let (n, cs) ←
    match String.ofList word with
    | "YAML" => n.version? cs
    | "TAG" => n.declaration? cs
    | _ => none
  match cs.dropWhile isBlank with
  | '#' :: rest => return (n, rest.dropWhile (!isBreak ·))
  | rest => if rest.head?.all isBreak then some (n, rest) else none

end Names

/-- Reads the name of an anchor or an alias. Some punctuation may follow it at once. -/
def anchorName? (cs : List Char) : Option (String × List Char) :=
  let name := cs.takeWhile isNameChar
  let rest := cs.drop name.length
  if !name.isEmpty && (atBoundary rest || rest.head?.any "?:,]\x7d%@`".toList.contains) then
    some (String.ofList name, rest)
  else none

end Yaml
end AccessRegistry
