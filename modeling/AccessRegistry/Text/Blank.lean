/-!
# AccessRegistry.Text.Blank

White space of Unicode text: the characters with the property `White_Space`, and texts made of
nothing else.
-/

namespace AccessRegistry
namespace Text

/-- The characters with the Unicode property `White_Space`. -/
def isSpace (c : Char) : Bool :=
  let n := c.toNat
  n == 0x20 || (decide (0x09 ≤ n) && decide (n ≤ 0x0D)) || n == 0x85 || n == 0xA0 || n == 0x1680 ||
    (decide (0x2000 ≤ n) && decide (n ≤ 0x200A)) || n == 0x2028 || n == 0x2029 || n == 0x202F ||
    n == 0x205F || n == 0x3000

/-- A text is blank when it is empty or consists of white space. -/
def isBlank (s : String) : Bool := s.toList.all isSpace

@[simp]
theorem isBlank_empty : isBlank "" = true := rfl

end Text
end AccessRegistry
