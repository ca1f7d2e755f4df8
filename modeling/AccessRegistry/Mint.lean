/-!
# AccessRegistry.Mint

The texts of new tokens: random bytes in hexadecimal digits.

* `Mint.tokenText` — two lower-case digits for each byte, so that different bytes make different
  texts.
-/

namespace AccessRegistry
namespace Mint

/-- The number of random bytes in a token. -/
def tokenBytes : Nat := 128

def hexDigit (n : Nat) : Char := Nat.digitChar n

/-- The two digits of a byte. -/
def hexPair (b : UInt8) : List Char := [hexDigit (b.toNat / 16), hexDigit (b.toNat % 16)]

def tokenText (bytes : List UInt8) : String := String.ofList (bytes.flatMap hexPair)

end Mint
end AccessRegistry
