import AccessRegistry.Text.Unprintable

/-!
# AccessRegistry.Text.Quoted

Text between double quotes, as messages and descriptions of values show it. Tab, line feed, carriage
return, NUL, the double quote and the backslash have short escapes; every other control or
unprintable character is written as its code point in hexadecimal, `\u` and braces around it.
-/

namespace AccessRegistry
namespace Text

/-- Lower-case hexadecimal digits of `n`, without leading zeros. -/
def hex (n : Nat) : String := String.ofList (Nat.toDigits 16 n)

/-- How one character is written between the quotes. -/
def escapeChar (c : Char) : String :=
  match c with
  | '\t' => "\\t"
  | '\n' => "\\n"
  | '\r' => "\\r"
  | '"' => "\\\""
  | '\\' => "\\\\"
  | c =>
    if c.toNat = 0 then "\\0"
    else if c.toNat < 0x20 || c.toNat = 0x7F then "\\u\x7b" ++ hex c.toNat ++ "\x7d"
    else if c.toNat < 0x7F then c.toString
    else if isUnprintable c then "\\u\x7b" ++ hex c.toNat ++ "\x7d"
    else c.toString

/-- The text between double quotes. -/
def quoted (s : String) : String :=
  "\"" ++ String.join (s.toList.map escapeChar) ++ "\""

end Text
end AccessRegistry
