import AccessRegistry.Json.Value

/-!
# AccessRegistry.Json.Token

The tokens of a JSON text.

* `Token.string`  — a string; its text is missing when it holds an undecodable byte or an escaped
  surrogate without its partner, which matters only to a reader of that text.
* `Token.number`  — a number; its value is missing when no finite double is near it.
* `Token.invalid` — the place where the text stops being made of tokens.

`scan` reads the text from left to right and takes the longest token at each place; nothing is
required between two tokens.
-/

namespace AccessRegistry
namespace Json

inductive Token where
  | beginObject
  | endObject
  | beginArray
  | endArray
  | colon
  | comma
  | null
  | bool (b : Bool)
  | number (n : Option Number)
  | string (s : Option String)
  | invalid
deriving Repr

/-- Characters as read from bytes: `none` is a byte that belongs to no character. -/
abbrev Source := List (Option Char)

namespace Source

def ofString (s : String) : Source := s.toList.map some

/-- The number of bytes. -/
def size (s : Source) : Nat := s.foldl (fun n c => n + (c.map Char.utf8Size).getD 1) 0

def isDigit (c : Char) : Bool := decide ('0' ≤ c) && decide (c ≤ '9')

def digitValue (c : Char) : Nat := c.toNat - '0'.toNat

/-- The digits at the front, and what follows them. -/
def digits : Source → List Nat × Source
  | some c :: rest =>
    if isDigit c then
      let (ds, rest') := digits rest
      (digitValue c :: ds, rest')
    else ([], some c :: rest)
  | cs => ([], cs)

def hexValue? (c : Char) : Option Nat :=
  if isDigit c then some (digitValue c)
  else if 'a' ≤ c ∧ c ≤ 'f' then some (c.toNat - 'a'.toNat + 10)
  else if 'A' ≤ c ∧ c ≤ 'F' then some (c.toNat - 'A'.toNat + 10)
  else none

/-- The number written with four hexadecimal digits. -/
def hexValue4? (a b c d : Option Char) : Option Nat := do
  let w ← hexValue? (← a)
  let x ← hexValue? (← b)
  let y ← hexValue? (← c)
  let z ← hexValue? (← d)
  return ((w * 16 + x) * 16 + y) * 16 + z

end Source

/-! ## Numbers -/

namespace Number

/-- Digits taken into a significand of 64 bits: the significand, and the number of digits from the
first one that does not fit. -/
def accumulate (significand : Nat) : List Nat → Nat × Nat
  | [] => (significand, 0)
  | d :: rest =>
    if significand * 10 + d < UInt64.size then accumulate (significand * 10 + d) rest
    else (significand, rest.length + 1)

/-- The value of decimal digits. -/
def ofDigits (ds : List Nat) : Nat := ds.foldl (fun n d => n * 10 + d) 0

/-- The parts of a written number. -/
structure Literal where
  negative : Bool
  whole : List Nat
  fraction : Option (List Nat)
  exponent : Option (Bool × List Nat)

/-- The largest exponent that is computed with; a larger one decides the value by itself. -/
def maxExponent : Nat := 0x7FFFFFFF

/-- The double of a written number: leading digits as far as they fit into 64 bits, scaled by the
power of ten that the other digits and the exponent make. -/
def Literal.float (n : Literal) : Option Binary64 :=
  let (significand, dropped) := accumulate 0 n.whole
  let fraction := n.fraction.getD []
  let (significand, unused) := accumulate significand fraction
  let scale : Int := (dropped : Int) - (fraction.length - unused : Nat)
  match n.exponent with
  | none => Binary64.ofScientific n.negative significand scale
  | some (down, ds) =>
    let e := ofDigits ds
    if e ≤ maxExponent then
      Binary64.ofScientific n.negative significand (if down then scale - e else scale + e)
    else if significand ≠ 0 ∧ !down then none
    else some (Binary64.zero n.negative)

/-- The value of a written number. -/
def Literal.value (n : Literal) : Option Number :=
  let v := ofDigits n.whole
  match n.fraction, n.exponent with
  | none, none =>
    if n.negative then
      if v ≠ 0 ∧ v ≤ 0x8000000000000000 then some (.int (-v)) else n.float.map .float
    else if v < UInt64.size then some (.int v) else n.float.map .float
  | _, _ => n.float.map .float

end Number

namespace Token

/-- The exponent part, when the text goes on with one. `none` means that it is cut short. -/
def exponentPart : Source → Option (Option (Bool × List Nat) × Source)
  | some c :: rest =>
    if c = 'e' ∨ c = 'E' then
      let (down, rest) : Bool × Source :=
        match rest with
        | some '+' :: r => (false, r)
        | some '-' :: r => (true, r)
        | r => (false, r)
      match Source.digits rest with
      | ([], _) => none
      | (ds, rest) => some (some (down, ds), rest)
    else some (none, some c :: rest)
  | cs => some (none, cs)

/-- The fraction part, when the text goes on with one. `none` means that it is cut short. -/
def fractionPart : Source → Option (Option (List Nat) × Source)
  | some '.' :: rest =>
    match Source.digits rest with
    | ([], _) => none
    | (ds, rest) => some (some ds, rest)
  | cs => some (none, cs)

/-- A number without its sign. A zero is not followed by another digit. -/
def unsigned (negative : Bool) (cs : Source) : Option (Option Number × Source) := do
  match Source.digits cs with
  | ([], _) => none
  | (0 :: _ :: _, _) => none
  | (whole, rest) =>
    let (fraction, rest) ← fractionPart rest
    let (exponent, rest) ← exponentPart rest
    return (Number.Literal.value ⟨negative, whole, fraction, exponent⟩, rest)

/-! ## Strings -/

/-- The character that a one-letter escape stands for. -/
def escaped? (c : Char) : Option Char :=
  match c with
  | '"' => some '"'
  | '\\' => some '\\'
  | '/' => some '/'
  | 'b' => some (Char.ofNat 8)
  | 'f' => some (Char.ofNat 12)
  | 'n' => some '\n'
  | 'r' => some '\r'
  | 't' => some '\t'
  | _ => none

def isHighSurrogate (n : Nat) : Bool := decide (0xD800 ≤ n) && decide (n < 0xDC00)

def isLowSurrogate (n : Nat) : Bool := decide (0xDC00 ≤ n) && decide (n < 0xE000)

/-- Puts a character in front of a text, if both are readable. -/
def extend (c : Option Char) (r : Option (Option (List Char) × Source)) :
    Option (Option (List Char) × Source) :=
  r.map fun (text, rest) =>
    (match c, text with
      | some c, some s => some (c :: s)
      | _, _ => none, rest)

/-- The text of a string after its opening quote, and what follows its closing quote. `none` means
that the string does not end, or holds a control character or an unknown escape. -/
def stringRest : Source → Option (Option (List Char) × Source)
  | [] => none
  | none :: rest => extend none (stringRest rest)
  | some '"' :: rest => some (some [], rest)
  | some '\\' :: some 'u' :: a :: b :: c :: d :: some '\\' :: some 'u' :: e :: f :: g :: h :: rest =>
    match Source.hexValue4? a b c d with
    | none => none
    | some high =>
      if isHighSurrogate high then
        match Source.hexValue4? e f g h with
        | none => none
        | some low =>
          if isLowSurrogate low then
            extend (some (Char.ofNat ((high - 0xD800) * 0x400 + (low - 0xDC00) + 0x10000)))
              (stringRest rest)
          else
            extend none (stringRest (some '\\' :: some 'u' :: e :: f :: g :: h :: rest))
      else
        extend (if isLowSurrogate high then none else some (Char.ofNat high))
          (stringRest (some '\\' :: some 'u' :: e :: f :: g :: h :: rest))
  | some '\\' :: some 'u' :: a :: b :: c :: d :: rest =>
    match Source.hexValue4? a b c d with
    | none => none
    | some n =>
      extend (if isHighSurrogate n || isLowSurrogate n then none else some (Char.ofNat n))
        (stringRest rest)
  | some '\\' :: some c :: rest =>
    match escaped? c with
    | none => none
    | some x => extend (some x) (stringRest rest)
  | some c :: rest =>
    if c = '\\' ∨ c.toNat < 0x20 then none else extend (some c) (stringRest rest)

/-! ## The whole text -/

def isBlank (c : Char) : Bool := c == ' ' || c == '\n' || c == '\t' || c == '\r'

/-- The token at the front of a text that starts with no blank. -/
def next (c : Char) (rest : Source) : Option (Token × Source) :=
  match c, rest with
  | '\x7b', r => some (.beginObject, r)
  | '\x7d', r => some (.endObject, r)
  | '[', r => some (.beginArray, r)
  | ']', r => some (.endArray, r)
  | ':', r => some (.colon, r)
  | ',', r => some (.comma, r)
  | 'n', some 'u' :: some 'l' :: some 'l' :: r => some (.null, r)
  | 't', some 'r' :: some 'u' :: some 'e' :: r => some (.bool true, r)
  | 'f', some 'a' :: some 'l' :: some 's' :: some 'e' :: r => some (.bool false, r)
  | '"', r => (stringRest r).map fun (s, r) => (.string (s.map String.ofList), r)
  | '-', r => (unsigned true r).map fun (n, r) => (.number n, r)
  | c, r =>
    if Source.isDigit c then (unsigned false (some c :: r)).map fun (n, r) => (.number n, r)
    else none

/-- The tokens of a text of at most `fuel` characters. -/
def scanUpTo : Nat → Source → List Token
  | 0, _ => []
  | _, [] => []
  | _ + 1, none :: _ => [.invalid]
  | fuel + 1, some c :: rest =>
    if isBlank c then scanUpTo fuel rest
    else
      match next c rest with
      | none => [.invalid]
      | some (t, rest) => t :: scanUpTo fuel rest

/-- The tokens of a text; the last one is `invalid` when the text is no sequence of tokens. -/
def scan (cs : Source) : List Token := scanUpTo cs.length cs

end Token

end Json
end AccessRegistry
