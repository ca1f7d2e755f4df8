import AccessRegistry.Text.Numeral

/-!
# AccessRegistry.Config.Address

Addresses to listen at: a host address and a port.

* `HostAddress.ofText?` — reads `a.b.c.d`, or eight groups of hexadecimal digits in brackets, where
  `::` stands for the groups of zeros that are missing and the last two groups may be written as
  `a.b.c.d`.
* `HostAddress.text`    — writes the longest run of two or more zero groups, the first of equals, as
  `::`.

Host names are not looked up.
-/

namespace AccessRegistry
namespace Config

inductive HostAddress where
  /-- four bytes -/
  | four (parts : List Nat)
  /-- eight groups of two bytes, and the zone that they are meant in, zero if none -/
  | six (groups : List Nat) (zone : Nat)
deriving DecidableEq, Repr

structure Address where
  host : HostAddress
  port : Nat
deriving DecidableEq, Repr

namespace HostAddress

/-- Cuts a text at each `sep`. -/
def pieces (sep : Char) : List Char → List (List Char)
  | [] => [[]]
  | c :: rest =>
    if c = sep then [] :: pieces sep rest
    else match pieces sep rest with
      | [] => [[c]]
      | p :: ps => (c :: p) :: ps

/-- A byte in decimal, without leading zeros. -/
def byte? (cs : List Char) : Option Nat :=
  if cs.length ≤ 3 ∧ (cs.head? ≠ some '0' ∨ cs.length = 1) then
    (Text.numeral? 10 cs).filter fun n => n < 256
  else none

/-- Four bytes with dots between them. -/
def dotted? (cs : List Char) : Option (List Nat) :=
  match pieces '.' cs with
  | [a, b, c, d] => [a, b, c, d].mapM byte?
  | _ => none

def group? (cs : List Char) : Option Nat := if cs.length ≤ 4 then Text.numeral? 16 cs else none

/-- Groups from pieces; `tail` tells whether the last piece may be four dotted bytes. -/
def groupsOf? (tail : Bool) : List (List Char) → Option (List Nat)
  | [] => some []
  | [p] =>
    match dotted? p with
    | some [a, b, c, d] => if tail then some [a * 256 + b, c * 256 + d] else none
    | _ => (group? p).map fun g => [g]
  | p :: ps => do return (← group? p) :: (← groupsOf? tail ps)

/-- Groups with colons between them; no text is no group. -/
def groups? (tail : Bool) (cs : List Char) : Option (List Nat) :=
  if cs.isEmpty then some [] else groupsOf? tail (pieces ':' cs)

/-- Cuts a text at the first `::`. -/
def splitAtGap : List Char → Option (List Char × List Char)
  | ':' :: ':' :: rest => some ([], rest)
  | c :: rest => (splitAtGap rest).map fun (a, b) => (c :: a, b)
  | [] => none

/-- The eight groups of an address in its long or short form. -/
def eightGroups? (cs : List Char) : Option (List Nat) :=
  match splitAtGap cs with
  | none => (groups? true cs).filter fun gs => gs.length = 8
  | some (front, back) => do
    let a ← groups? false front
    let b ← groups? true back
    if a.length + b.length ≤ 7 then
      return a ++ List.replicate (8 - a.length - b.length) 0 ++ b
    else none

/-- The eight groups, and after `%` the zone. -/
def zoned? (cs : List Char) : Option HostAddress := do
  match cs.dropWhile (· != '%') with
  | [] => return .six (← eightGroups? cs) 0
  | _ :: zone =>
    let z ← (Text.numeral? 10 zone).filter fun n => n < UInt32.size
    return .six (← eightGroups? (cs.takeWhile (· != '%'))) z

def ofText? (s : String) : Option HostAddress :=
  match s.toList with
  | '[' :: rest =>
    if rest.getLast? = some ']' then zoned? rest.dropLast else none
  | cs => (dotted? cs).map four

/-! ## Writing -/

def dotted (parts : List Nat) : String := ".".intercalate (parts.map toString)

def colons (groups : List Nat) : String :=
  ":".intercalate (groups.map fun g => String.ofList (Text.digitsOf 16 g))

/-- The number of zeros at the front. -/
def zeros (groups : List Nat) : Nat := (groups.takeWhile (· == 0)).length

/-- Where the longest run of zeros begins, and its length; the first of equal runs counts. -/
def longestRun : List Nat → Nat × Nat
  | [] => (0, 0)
  | g :: gs =>
    let here := zeros (g :: gs)
    let (start, length) := longestRun gs
    if length ≤ here then (0, here) else (start + 1, length)

/-- Eight groups, in the short form if two zeros stand side by side. Four bytes that are carried in
an address of eight groups stay dotted. -/
def shortGroups (groups : List Nat) : String :=
  match groups with
  | [0, 0, 0, 0, 0, 0xFFFF, hi, lo] =>
    "::ffff:" ++ dotted [hi / 256, hi % 256, lo / 256, lo % 256]
  | _ =>
    let (start, length) := longestRun groups
    if 2 ≤ length then colons (groups.take start) ++ "::" ++ colons (groups.drop (start + length))
    else colons groups

def text : HostAddress → String
  | .four parts => dotted parts
  | .six groups 0 => "[" ++ shortGroups groups ++ "]"
  | .six groups zone => "[" ++ shortGroups groups ++ "%" ++ toString zone ++ "]"

end HostAddress

def Address.text (a : Address) : String := a.host.text ++ ":" ++ toString a.port

end Config
end AccessRegistry
