/-!
# AccessRegistry.Decimal.Binary64

Finite binary floating-point numbers of 53 significant bits, as integers:

* `Binary64.ofRatio` — the double nearest to a quotient of natural numbers, a tie going to the even
  significand; there is none when the quotient is too large.
* `mul`, `div` — exact product or quotient, rounded once.
* `ofScientific` — the value read from decimal digits and a power of ten.
-/

namespace AccessRegistry

/-- The finite number `significand * 2 ^ exponent`, negated if `negative`. Values are kept with at
most 53 significant bits and the smallest exponent above `-1075` that allows it. -/
structure Binary64 where
  negative : Bool
  significand : Nat
  exponent : Int
deriving DecidableEq, Repr, Inhabited

/-- The integer nearest to `num / den`; a half goes to the even neighbour. -/
def roundDiv (num den : Nat) : Nat :=
  let low := num / den
  let rest := num % den
  if 2 * rest < den then low
  else if den < 2 * rest then low + 1
  else if low % 2 = 0 then low else low + 1

namespace Binary64

/-- The exponent of the smallest positive number. -/
def minExponent : Int := -1074

/-- The exponent of the largest finite numbers. -/
def maxExponent : Int := 971

/-- The least significand that uses all 53 bits. -/
def leastNormal : Nat := 0x10000000000000

def zero (negative : Bool) : Binary64 := ⟨negative, 0, minExponent⟩

def isZero (x : Binary64) : Bool := x.significand == 0

/-- The numbers `n * 2 ^ e` and `d` with the power moved to the side where it is whole. -/
def spread (n d : Nat) (e : Int) : Nat × Nat :=
  (n * Nat.pow 2 e.toNat, d * Nat.pow 2 (-e).toNat)

/-- The number nearest to `num / den * 2 ^ scale`; none when it is out of range. -/
def ofRatio (negative : Bool) (num den : Nat) (scale : Int) : Option Binary64 :=
  if num = 0 then some (zero negative)
  else
    let guess : Int := (Nat.log2 num : Int) - (Nat.log2 den : Int) + scale - 53
    let whole (q : Int) : Nat × Nat := spread num den (scale - q)
    let q := if (whole guess).1 / (whole guess).2 < 2 * leastNormal then guess else guess + 1
    let q := max q minExponent
    let m := roundDiv (whole q).1 (whole q).2
    let (m, q) := if m = 2 * leastNormal then (leastNormal, q + 1) else (m, q)
    if maxExponent < q then none else some ⟨negative, m, q⟩

def ofNat (n : Nat) : Option Binary64 := ofRatio false n 1 0

def mul (x y : Binary64) : Option Binary64 :=
  ofRatio (x.negative != y.negative) (x.significand * y.significand) 1 (x.exponent + y.exponent)

/-- The quotient by a number other than zero. -/
def div (x y : Binary64) : Option Binary64 :=
  ofRatio (x.negative != y.negative) x.significand y.significand (x.exponent - y.exponent)

def neg (x : Binary64) : Binary64 := { x with negative := !x.negative }

/-- Powers of ten up to this one have a double near them. -/
def maxPowerOfTen : Nat := 308

/-- Divides by ten to the power `k` in steps of at most `maxPowerOfTen`, rounding after each. -/
def divPowerOfTen (x : Binary64) (k : Nat) : Option Binary64 :=
  if _h : k ≤ maxPowerOfTen then do x.div (← ofNat (Nat.pow 10 k))
  else if x.isZero then some x
  else do (← x.div (← ofNat (Nat.pow 10 maxPowerOfTen))).divPowerOfTen (k - maxPowerOfTen)
termination_by k
decreasing_by simp only [maxPowerOfTen] at *; omega

/-- The double read for `significand * 10 ^ exponent`: the significand and the power of ten are
rounded first, then their product or quotient. None when that is out of range. -/
def ofScientific (negative : Bool) (significand : Nat) (exponent : Int) : Option Binary64 := do
  let x ← ofNat significand
  let x ←
    if exponent < 0 then x.divPowerOfTen (-exponent).toNat
    else if exponent.toNat ≤ maxPowerOfTen then x.mul (← ofNat (Nat.pow 10 exponent.toNat))
    else if x.isZero then some x
    else none
  return if negative then x.neg else x

end Binary64

end AccessRegistry
