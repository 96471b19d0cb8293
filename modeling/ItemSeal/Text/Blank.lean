/-!
Blank text: text of white space alone, as Unicode defines white space.
-/

namespace ItemSeal.Text

/-- The character is white space. -/
def isBlankChar (c : Char) : Bool :=
  let n := c.toNat
  (decide (0x09 ≤ n) && decide (n ≤ 0x0D)) || n == 0x20 || n == 0x85 || n == 0xA0 || n == 0x1680
    || (decide (0x2000 ≤ n) && decide (n ≤ 0x200A)) || n == 0x2028 || n == 0x2029 || n == 0x202F
    || n == 0x205F || n == 0x3000

/-- The text has no character but white space. -/
def isBlank (text : String) : Bool :=
  text.toList.all isBlankChar

end ItemSeal.Text
