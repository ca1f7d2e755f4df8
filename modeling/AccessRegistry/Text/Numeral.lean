/-!
# AccessRegistry.Text.Numeral

Numbers written with digits, in bases up to sixteen.
-/

namespace AccessRegistry
namespace Text

/-- The value of a character as a digit; letters of either case follow nine. -/
def digitValue? (base : Nat) (c : Char) : Option Nat :=
  let v : Option Nat :=
    if '0' ≤ c ∧ c ≤ '9' then some (c.toNat - '0'.toNat)
    else if 'a' ≤ c ∧ c ≤ 'f' then some (c.toNat - 'a'.toNat + 10)
    else if 'A' ≤ c ∧ c ≤ 'F' then some (c.toNat - 'A'.toNat + 10)
    else none
  v.filter fun d => d < base

/-- The number written with some digits, the highest one first. No digit at all is no number. -/
def numeral? (base : Nat) (cs : List Char) : Option Nat :=
  if cs.isEmpty then none
  else (cs.mapM (digitValue? base)).map fun ds => ds.foldl (fun n d => n * base + d) 0

/-- The digits of a number. -/
def digitsOf (base n : Nat) : List Char := Nat.toDigits base n

end Text
end AccessRegistry
