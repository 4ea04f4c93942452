import Localization.Text

/-! Blank characters: spaces, line ends and separators. -/

namespace Localization

/-- Whether a character is blank. Separators of files, groups, records and units are. -/
def isBlankChar (c : Char) : Bool :=
  let n := c.toNat
  9 ≤ n && n ≤ 13 || 0x1C ≤ n && n ≤ 0x20 || n == 0x85 || n == 0xA0 || n == 0x1680 ||
    0x2000 ≤ n && n ≤ 0x200A || n == 0x2028 || n == 0x2029 || n == 0x202F || n == 0x205F ||
    n == 0x3000

/-- Whether a code point is blank. A lone surrogate is not. -/
def CodePoint.isBlank : CodePoint → Bool
  | .char c => isBlankChar c
  | .surrogate _ => false

/-- Characters without the blank ones at both ends. -/
def trimBlanks (cs : List Char) : List Char :=
  ((cs.dropWhile isBlankChar).reverse.dropWhile isBlankChar).reverse

end Localization
