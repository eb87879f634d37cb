/-! Blank characters of all scripts, and text without the blanks at its ends. -/

namespace Overlay
namespace Text

/-- A blank of some script: a separator, or a control that parts words, lines or records. --/
def isBlank (c : Char) : Bool :=
  let n := c.toNat
  (0x9 ≤ n && n ≤ 0xd) || (0x1c ≤ n && n ≤ 0x20) || n == 0x85 || n == 0xa0 || n == 0x1680
    || (0x2000 ≤ n && n ≤ 0x200a) || n == 0x2028 || n == 0x2029 || n == 0x202f || n == 0x205f
    || n == 0x3000

/-- The characters without the blanks at both ends. --/
def trimBlanks (cs : List Char) : List Char :=
  ((cs.dropWhile isBlank).reverse.dropWhile isBlank).reverse

/-- Text without the blanks at both ends. --/
def strip (text : String) : String := String.ofList (trimBlanks text.toList)

end Text
end Overlay
