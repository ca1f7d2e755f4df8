import AccessRegistry.Decimal.Binary64

/-!
# AccessRegistry.Decimal.Shortest

The decimal text of a finite double.

* `Binary64.shortest` — the fewest decimal digits that lie in the interval of numbers rounding to
  the double, and of those the nearest to it.
* `Binary64.text` — those digits, positional from `1e-5` up to `1e16` and scientific elsewhere.
-/

namespace AccessRegistry
namespace Binary64

/-- A decimal number `digits * 10 ^ exponent`. -/
structure Digits where
  digits : Nat
  exponent : Int
deriving DecidableEq, Repr

/-- Both sides of a comparison of `n * 2 ^ e` with `a * 10 ^ p`, as natural numbers. -/
def sides (n : Nat) (e : Int) (a : Nat) (p : Int) : Nat × Nat :=
  (n * Nat.pow 2 e.toNat * Nat.pow 10 (-p).toNat,
    a * Nat.pow 10 p.toNat * Nat.pow 2 (-e).toNat)

/-- Whether the decimal `a * 10 ^ p` rounds to `x`: it lies between the midpoints to the
neighbours of `x`, which belong to `x` when its significand is even. -/
def covers (x : Binary64) (a : Nat) (p : Int) : Bool :=
  let m := x.significand
  let below := if m = leastNormal ∧ minExponent < x.exponent then 1 else 2
  let low := sides (4 * m - below) (x.exponent - 2) a p
  let high := sides (4 * m + 2) (x.exponent - 2) a p
  if m % 2 = 0 then decide (low.1 ≤ low.2) && decide (high.2 ≤ high.1)
  else decide (low.1 < low.2) && decide (high.2 < high.1)

/-- The point of the grid `10 ^ p` to use for `x`, if one of the two around it rounds to `x`. -/
def onGrid (x : Binary64) (p : Int) : Option Nat :=
  let s := sides x.significand x.exponent 1 p
  let a := s.1 / s.2
  match x.covers a p, x.covers (a + 1) p with
  | true, true =>
    let rest := s.1 % s.2
    if 2 * rest < s.2 then some a
    else if s.2 < 2 * rest then some (a + 1)
    else if a % 2 = 0 then some a else some (a + 1)
  | true, false => some a
  | false, true => some (a + 1)
  | false, false => none

/-- The first grid, from `p` downwards, with a usable point. -/
def onFirstGrid (x : Binary64) (p : Int) : Nat → Digits
  | 0 => ⟨0, 0⟩
  | fuel + 1 =>
    match x.onGrid p with
    | some a => ⟨a, p⟩
    | none => x.onFirstGrid (p - 1) fuel

/-- An upper bound of the decimal exponent of `x`, at most two too large. -/
def magnitude (x : Binary64) : Int :=
  ((Nat.log2 x.significand : Int) + x.exponent) * 30103 / 100000 + 1

/-- Zeros at the end of the digits moved into the exponent. -/
def Digits.strip (d : Digits) : Nat → Digits
  | 0 => d
  | fuel + 1 =>
    if d.digits ≠ 0 ∧ d.digits % 10 = 0 then
      Digits.strip ⟨d.digits / 10, d.exponent + 1⟩ fuel
    else d

/-- The fewest digits that read back as `x`; seventeen always do. -/
def shortest (x : Binary64) : Digits :=
  if x.isZero then ⟨0, 0⟩ else (x.onFirstGrid x.magnitude 24).strip 24

/-- How a number is written: the decimal exponents that are written positionally, and the sign of
a written exponent that is not negative. -/
structure Style where
  leastPositional : Int
  greatestPositional : Int
  plus : String

/-- Numbers from `1e-5` up to `1e16` are positional; exponents always have a sign. -/
def style : Style := ⟨-5, 15, "+"⟩

def zeros (n : Nat) : String := String.ofList (List.replicate n '0')

/-- The text of the double: at least one digit stands on each side of a point. -/
def text (x : Binary64) : String :=
  let sign := if x.negative then "-" else ""
  let d := x.shortest
  let s := toString d.digits
  let e : Int := d.exponent + s.length - 1
  if x.isZero then sign ++ "0.0"
  else if style.leastPositional ≤ e ∧ e ≤ style.greatestPositional then
    if e < 0 then sign ++ "0." ++ zeros (-e - 1).toNat ++ s
    else
      let whole := e.toNat + 1
      if s.length ≤ whole then sign ++ s ++ zeros (whole - s.length) ++ ".0"
      else sign ++ String.ofList (s.toList.take whole) ++ "." ++ String.ofList (s.toList.drop whole)
  else
    let fraction := if s.length = 1 then "" else "." ++ String.ofList (s.toList.drop 1)
    sign ++ String.ofList (s.toList.take 1) ++ fraction ++ "e" ++
      (if e < 0 then "-" else style.plus) ++ toString e.natAbs

end Binary64
end AccessRegistry
