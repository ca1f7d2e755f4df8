import AccessRegistry.Instant.Basic
import AccessRegistry.Text.Blank

/-!
# AccessRegistry.Instant.Rfc3339

The text of an instant after RFC 3339.

* `Instant.text` — UTC, with as many groups of three fraction digits as lose nothing.
* `Instant.ofText?` — reads that, and forgives blanks between the parts, parts of fewer digits, any
  case of `T`, `Z` and `UTC`, offsets with or without a colon, and fraction digits beyond the ninth.
-/

namespace AccessRegistry
namespace Instant

/-- Decimal digits, with zeros in front up to a width. -/
def padded (width n : Nat) : String :=
  let s := toString n
  String.ofList (List.replicate (width - s.length) '0') ++ s

/-- Four digits, or a sign and at least four digits outside the years 0 to 9999. -/
def yearText (y : Int) : String :=
  if 0 ≤ y ∧ y ≤ 9999 then padded 4 y.toNat
  else (if y < 0 then "-" else "+") ++ padded 4 y.natAbs

/-- The fraction of a second: nothing, or a point and three, six or nine digits. -/
def fractionText (nanos : Nat) : String :=
  if nanos = 0 then ""
  else if nanos % 1000000 = 0 then "." ++ padded 3 (nanos / 1000000)
  else if nanos % 1000 = 0 then "." ++ padded 6 (nanos / 1000)
  else "." ++ padded 9 nanos

/-- The text in UTC. A leap second is second 60. -/
def text (t : Instant) : String :=
  let date := Date.ofDays (t.seconds / secondsPerDay)
  let second := (t.seconds % secondsPerDay).toNat
  yearText date.year ++ "-" ++ padded 2 date.month ++ "-" ++ padded 2 date.day ++ "T" ++
    padded 2 (second / 3600) ++ ":" ++ padded 2 (second / 60 % 60) ++ ":" ++
    padded 2 (second % 60 + t.nanos / nanosPerSecond) ++
    fractionText (t.nanos % nanosPerSecond) ++ "Z"

/-! ## Reading -/

/-- Drops the blanks at the front. -/
def skipBlanks (cs : List Char) : List Char := cs.dropWhile Text.isSpace

def isDigit (c : Char) : Bool := decide ('0' ≤ c) && decide (c ≤ '9')

/-- The number that digits write. -/
def numberOf (ds : List Char) : Nat := ds.foldl (fun n c => n * 10 + (c.toNat - '0'.toNat)) 0

/-- The number written with the digits at the front, at most `width` of them and at least one. -/
def number? (width : Nat) (cs : List Char) : Option (Nat × List Char) :=
  let ds := (cs.take width).takeWhile isDigit
  if ds.isEmpty then none else some (numberOf ds, cs.drop ds.length)

/-- A part of a date or time, after blanks, that is at most `greatest`. -/
def part? (least greatest : Nat) (cs : List Char) : Option (Nat × List Char) := do
  let (n, rest) ← number? 2 (skipBlanks cs)
  if least ≤ n ∧ n ≤ greatest then some (n, rest) else none

/-- A separator, after blanks. -/
def separator? (c : Char) (cs : List Char) : Option (List Char) :=
  match skipBlanks cs with
  | x :: rest => if x = c then some rest else none
  | [] => none

/-- A year: up to four digits, or a sign and any number of digits. -/
def year? (cs : List Char) : Option (Int × List Char) :=
  match skipBlanks cs with
  | '-' :: rest => (number? rest.length rest).map fun (n, r) => (-(n : Int), r)
  | '+' :: rest => (number? rest.length rest).map fun (n, r) => ((n : Int), r)
  | rest => (number? 4 rest).map fun (n, r) => ((n : Int), r)

/-- The nanoseconds of a fraction: a point and digits, of which nine count. -/
def fraction? (cs : List Char) : Option (Nat × List Char) :=
  match cs with
  | '.' :: rest =>
    let ds := rest.takeWhile isDigit
    let kept := ds.take 9
    if ds.isEmpty then none
    else some (numberOf kept * Nat.pow 10 (9 - kept.length), rest.drop ds.length)
  | _ => some (0, cs)

/-- Exactly two digits. -/
def twoDigits? : List Char → Option (Nat × List Char)
  | a :: b :: rest =>
    if isDigit a && isDigit b then some (numberOf [a, b], rest) else none
  | _ => none

/-- The seconds that local time is ahead: `Z`, `UTC`, or a sign, hours and minutes. -/
def offset? (cs : List Char) : Option (Int × List Char) :=
  match cs with
  | 'Z' :: rest => some (0, rest)
  | 'z' :: rest => some (0, rest)
  | u :: t :: c :: rest =>
    if u.toLower = 'u' ∧ t.toLower = 't' ∧ c.toLower = 'c' then some (0, rest)
    else do
      let negative ←
        if u = '+' then some false
        else if u = '-' ∨ u = '−' then some true
        else none
      let (hours, rest) ← twoDigits? (t :: c :: rest)
      let (minutes, rest) ← twoDigits? (rest.dropWhile fun x => x == ':' || Text.isSpace x)
      if 24 ≤ hours ∨ 60 ≤ minutes then none
      let ahead : Int := ((hours * 60 + minutes) * 60 : Nat)
      return (if negative then -ahead else ahead, rest)
  | _ => none

/-- The separator between date and time. -/
def afterDate? : List Char → Option (List Char)
  | c :: rest => if c = 'T' ∨ c = 't' ∨ c = ' ' then some rest else none
  | [] => none

/-- The instant that a text gives. -/
def ofText? (s : String) : Option Instant := do
  let (year, cs) ← year? s.toList
  let (month, cs) ← part? 1 12 (← separator? '-' cs)
  let (day, cs) ← part? 1 31 (← separator? '-' cs)
  let (hour, cs) ← part? 0 23 (← afterDate? cs)
  let (minute, cs) ← part? 0 59 (← separator? ':' cs)
  let (second, cs) ← part? 0 60 (← separator? ':' cs)
  let (nanos, cs) ← fraction? cs
  let (ahead, cs) ← offset? (skipBlanks cs)
  let date : Date := ⟨year, month, day⟩
  if !date.isValid || !(skipBlanks cs).isEmpty then none
  let time : Int := ((hour * 60 + minute) * 60 + min second 59 : Nat)
  let leap := if second = 60 then nanosPerSecond else 0
  let t : Instant := ⟨date.toDays * secondsPerDay + time - ahead, nanos + leap⟩
  if t.inRange then some t else none

end Instant
end AccessRegistry
