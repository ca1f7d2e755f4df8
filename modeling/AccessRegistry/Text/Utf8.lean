/-!
# AccessRegistry.Text.Utf8

Reading bytes as UTF-8. A byte that starts no well-formed sequence stands for nothing by itself, and
reading goes on with the byte after it.
-/

namespace AccessRegistry
namespace Text

/-- The low six bits of a continuation byte. -/
def continuation? (b : UInt8) : Option Nat :=
  if b.toNat / 64 = 2 then some (b.toNat % 64) else none

/-- The character `n`, if it needs as many bytes as it was given. -/
def scalar? (least n : Nat) : Option Char :=
  if least ≤ n ∧ n.isValidChar then some (Char.ofNat n) else none

/-- The character written in two bytes. -/
def twoBytes? (a b : UInt8) : Option Char := do
  if a.toNat / 32 ≠ 6 then none
  scalar? 0x80 (a.toNat % 32 * 64 + (← continuation? b))

/-- The character written in three bytes. -/
def threeBytes? (a b c : UInt8) : Option Char := do
  if a.toNat / 16 ≠ 14 then none
  scalar? 0x800 (a.toNat % 16 * 4096 + (← continuation? b) * 64 + (← continuation? c))

/-- The character written in four bytes. -/
def fourBytes? (a b c d : UInt8) : Option Char := do
  if a.toNat / 8 ≠ 30 then none
  scalar? 0x10000 (a.toNat % 8 * 262144 + (← continuation? b) * 4096 +
    (← continuation? c) * 64 + (← continuation? d))

/-- The first character of some bytes and the number of bytes after the first that belong to it. -/
def headChar? (a : UInt8) (rest : List UInt8) : Option (Char × Nat) :=
  if a.toNat < 0x80 then some (Char.ofNat a.toNat, 0)
  else match rest with
    | [] => none
    | [b] => (twoBytes? a b).map (·, 1)
    | [b, c] => ((twoBytes? a b).map (·, 1)).or ((threeBytes? a b c).map (·, 2))
    | b :: c :: d :: _ =>
      (((twoBytes? a b).map (·, 1)).or ((threeBytes? a b c).map (·, 2))).or
        ((fourBytes? a b c d).map (·, 3))

/-- Decodes bytes, passing over the first `skip` of them. -/
def decodeFrom : Nat → List UInt8 → List (Option Char)
  | _, [] => []
  | skip + 1, _ :: rest => decodeFrom skip rest
  | 0, a :: rest =>
    match headChar? a rest with
    | some (c, more) => some c :: decodeFrom more rest
    | none => none :: decodeFrom 0 rest

/-- The characters of some bytes; `none` stands for a byte that belongs to no character. -/
def decodeUtf8 (bytes : List UInt8) : List (Option Char) := decodeFrom 0 bytes

end Text
end AccessRegistry
