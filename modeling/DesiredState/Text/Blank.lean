/-!
White space at the ends of a text. The table is the Unicode property White_Space; the zero-width
space U+200B is not in it. This module trims and lowers letters, it does not split.
-/
namespace DesiredState.Text

/-- The characters with the property White_Space. -/
def isBlank (c : Char) : Bool :=
  let n := c.toNat
  (0x09 ≤ n && n ≤ 0x0D) || n == 0x20 || n == 0x85 || n == 0xA0 || n == 0x1680 ||
    (0x2000 ≤ n && n ≤ 0x200A) || n == 0x2028 || n == 0x2029 || n == 0x202F || n == 0x205F || n == 0x3000

def trim (cs : List Char) : List Char :=
  ((cs.dropWhile isBlank).reverse.dropWhile isBlank).reverse

def lowered (s : String) : List Char := s.toList.map Char.toLower

end DesiredState.Text
