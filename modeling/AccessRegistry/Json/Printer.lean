import AccessRegistry.Json.Value
import AccessRegistry.Text.Quoted

/-!
# AccessRegistry.Json.Printer

The compact text of a JSON value: no white space, members in their order. In strings the double
quote, the backslash and the control characters below `0x20` are escaped, everything else stands
for itself.
-/

namespace AccessRegistry
namespace Json

/-- Four lower-case hexadecimal digits. -/
def hex4 (n : Nat) : List Char :=
  let digits := Nat.toDigits 16 n
  List.replicate (4 - digits.length) '0' ++ digits

/-- How one character is written inside a string. -/
def escape (c : Char) : List Char :=
  match c with
  | '"' => ['\\', '"']
  | '\\' => ['\\', '\\']
  | '\n' => ['\\', 'n']
  | '\r' => ['\\', 'r']
  | '\t' => ['\\', 't']
  | c =>
    if c.toNat = 8 then ['\\', 'b']
    else if c.toNat = 12 then ['\\', 'f']
    else if c.toNat < 0x20 then '\\' :: 'u' :: hex4 c.toNat
    else [c]

/-- A string between double quotes. -/
def stringText (s : String) : List Char :=
  '"' :: s.toList.flatMap escape ++ ['"']

namespace Value

mutual

/-- The characters of the compact text, before those of `tail`. -/
def chars : Value → List Char → List Char
  | .null, tail => "null".toList ++ tail
  | .bool true, tail => "true".toList ++ tail
  | .bool false, tail => "false".toList ++ tail
  | .number n, tail => n.text.toList ++ tail
  | .string s, tail => stringText s ++ tail
  | .array [], tail => '[' :: ']' :: tail
  | .array (v :: rest), tail => '[' :: chars v (itemChars rest (']' :: tail))
  | .object [], tail => '\x7b' :: '\x7d' :: tail
  | .object ((name, v) :: rest), tail =>
    '\x7b' :: stringText name ++ ':' :: chars v (memberChars rest ('\x7d' :: tail))

def itemChars : List Value → List Char → List Char
  | [], tail => tail
  | v :: rest, tail => ',' :: chars v (itemChars rest tail)

def memberChars : List (String × Value) → List Char → List Char
  | [], tail => tail
  | (name, v) :: rest, tail =>
    ',' :: stringText name ++ ':' :: chars v (memberChars rest tail)

end

/-- The compact text. -/
def text (v : Value) : String := String.ofList (v.chars [])

end Value

end Json
end AccessRegistry
