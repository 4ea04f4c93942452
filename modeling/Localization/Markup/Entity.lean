import Localization.Markup.EntityData

/-! Named and numbered characters of hypertext, and the signs that hypertext escapes. -/

namespace Localization.Markup

namespace Entity

def find? (name : List Char) : Option (List Char) :=
  let name := String.ofList name
  (names.find? fun e => e.1 == name).map fun e => e.2.map Char.ofNat

/-- Whether a number is that of a character which may be written as a number: no surrogate, no
control character but blanks, and no code point that is kept free. -/
def isWritable (n : Nat) : Bool :=
  n ≤ 0x10FFFF && !(0xD800 ≤ n && n ≤ 0xDFFF) && !(0xFDD0 ≤ n && n ≤ 0xFDEF) &&
    n % 0x10000 != 0xFFFE && n % 0x10000 != 0xFFFF && 9 ≤ n && n != 0x0B &&
    !(0x0E ≤ n && n ≤ 0x1F) && !(0x7F ≤ n && n ≤ 0x9F)

/-- The characters that bytes from 128 to 159 stand for in an old code of text. -/
def oldCharacters : List Nat :=
  [0x20AC, 0x81, 0x201A, 0x192, 0x201E, 0x2026, 0x2020, 0x2021, 0x2C6, 0x2030, 0x160, 0x2039, 0x152,
   0x8D, 0x17D, 0x8F, 0x90, 0x2018, 0x2019, 0x201C, 0x201D, 0x2022, 0x2013, 0x2014, 0x2DC, 0x2122,
   0x161, 0x203A, 0x153, 0x9D, 0x17E, 0x178]

/-- The character of a number, where numbers from 128 to 159 are those of an old code. A number that
stands for no character gives U+FFFD. -/
def ofNumber (n : Nat) : Char :=
  if 0x80 ≤ n && n ≤ 0x9F then Char.ofNat (oldCharacters.getD (n - 0x80) 0xFFFD)
  else if n.isValidChar then Char.ofNat n
  else '\ufffd'

end Entity

def escapeChar : Char → List Char
  | '&' => "&amp;".toList
  | '<' => "&lt;".toList
  | '>' => "&gt;".toList
  | '"' => "&quot;".toList
  | c => [c]

def escape (cs : List Char) : List Char := cs.flatMap escapeChar

end Localization.Markup
