/-!
Blank characters and trimming.

A field of an action document or a console line is read without the blanks around it.  Blank means
the Unicode property White_Space, which is wider than the ASCII blanks that `Char.isWhitespace`
knows.
-/

namespace RobotRoutine.Text

/-- The characters with the Unicode property White_Space, twenty-five in all. -/
def isBlank (c : Char) : Bool :=
  let n := c.toNat
  (0x09 ≤ n && n ≤ 0x0D) || n == 0x20 || n == 0x85 || n == 0xA0 || n == 0x1680 ||
    (0x2000 ≤ n && n ≤ 0x200A) || n == 0x2028 || n == 0x2029 || n == 0x202F || n == 0x205F ||
    n == 0x3000

def trimChars (cs : List Char) : List Char :=
  ((cs.dropWhile isBlank).reverse.dropWhile isBlank).reverse

def trim (s : String) : String :=
  String.ofList (trimChars s.toList)

def isAllBlank (s : String) : Bool :=
  s.toList.all isBlank

end RobotRoutine.Text
