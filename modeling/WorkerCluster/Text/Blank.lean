/-!
# Blanks

The characters with the Unicode property `White_Space`, and texts without them at their ends.
-/

namespace WorkerCluster.Text

/-- Whether a character is white space. -/
def isBlank (c : Char) : Bool :=
  let n := c.toNat
  (9 ≤ n && n ≤ 13) || n = 32 || n = 0x85 || n = 0xa0 || n = 0x1680 ||
    (0x2000 ≤ n && n ≤ 0x200a) || n = 0x2028 || n = 0x2029 || n = 0x202f || n = 0x205f || n = 0x3000

/-- The characters without blanks at either end. -/
def trimmed (cs : List Char) : List Char :=
  ((cs.dropWhile isBlank).reverse.dropWhile isBlank).reverse

/-- The text without blanks at either end. -/
def trim (s : String) : String := String.ofList (trimmed s.toList)

/-- Whether a text consists of blanks. -/
def isBlankText (s : String) : Bool := s.toList.all isBlank

end WorkerCluster.Text
