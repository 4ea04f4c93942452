import Localization.Markup.Entity
import Localization.Text.Case
import Localization.Text.Blank
import Localization.Text.PunctuationData

/-! Characters of markdown: which of them are blank or punctuation, and how they are written when
they would mean something else. -/

namespace Localization.Markdown

/-- A space or a tab, which counts as indentation. -/
def isSpace (c : Char) : Bool := c == ' ' || c == '\t'

def isWhite (c : Char) : Bool :=
  let n := c.toNat
  9 ≤ n && n ≤ 13 || n == 0x20 || n == 0xA0 || n == 0x1680 || 0x2000 ≤ n && n ≤ 0x200A ||
    n == 0x202F || n == 0x205F || n == 0x3000

/-- Punctuation of ASCII, any of which a backslash makes plain. -/
def isAsciiPunctuation (c : Char) : Bool :=
  0x21 ≤ c.toNat && c.toNat ≤ 0x7E && !c.isAlphanum

/-- A character that counts as punctuation next to a run of delimiters. -/
def isPunctuation (c : Char) : Bool :=
  isAsciiPunctuation c || 0x80 ≤ c.toNat && Text.Case.inRanges Text.punctuationRanges c.toNat

def hexValue? (c : Char) : Option Nat :=
  if c.isDigit then some (c.toNat - '0'.toNat)
  else if 'a' ≤ c && c ≤ 'f' then some (c.toNat - 'a'.toNat + 10)
  else if 'A' ≤ c && c ≤ 'F' then some (c.toNat - 'A'.toNat + 10)
  else none

/-- The number that digits write to a base. -/
def numberOf (base : Nat) (digits : List Char) : Nat :=
  digits.foldl (fun n c => base * n + (hexValue? c).getD 0) 0

/-- The number after a number sign, and how many characters write it with its semicolon. At most
`decimals` digits of base ten count, or `hexes` digits of base sixteen after an `x`. -/
def numbered? (decimals hexes : Nat) (cs : List Char) : Option (Nat × Nat) :=
  let closed (lead limit base : Nat) (digits rest : List Char) : Option (Nat × Nat) :=
    if digits.isEmpty || limit < digits.length || rest.head? ≠ some ';' then none
    else some (numberOf base digits, lead + digits.length + 1)
  match cs with
  | 'x' :: cs =>
    let (digits, rest) := cs.span fun c => (hexValue? c).isSome
    closed 1 hexes 16 digits rest
  | 'X' :: cs =>
    let (digits, rest) := cs.span fun c => (hexValue? c).isSome
    closed 1 hexes 16 digits rest
  | cs =>
    let (digits, rest) := cs.span Char.isDigit
    closed 0 decimals 10 digits rest

/-- The characters of a name with a semicolon, and how many characters write it. -/
def named? (cs : List Char) : Option (List Char × Nat) :=
  let (name, rest) := cs.span Char.isAlphanum
  if !(name.head?.any Char.isAlpha) || name.length < 2 || 32 < name.length ||
      rest.head? ≠ some ';' then none
  else (Markup.Entity.find? name).map fun found => (found, name.length + 1)

/-- The characters of a reference after its ampersand, and how many characters write it. A number
that stands for no character gives U+FFFD. -/
def reference? : List Char → Option (List Char × Nat)
  | '#' :: cs =>
    (numbered? 7 6 cs).map fun (n, length) =>
      ([if Markup.Entity.isWritable n then Char.ofNat n else '\ufffd'], length + 1)
  | cs => named? cs

/-- The same inside an address or a title, where more digits may stand and a number that stands for
no character is no reference. -/
def innerReference? : List Char → Option (List Char × Nat)
  | '#' :: cs =>
    match numbered? 8 8 cs with
    | some (n, length) =>
      if Markup.Entity.isWritable n then some ([Char.ofNat n], length + 1) else none
    | none => none
  | cs => named? cs

/-- Characters with escapes and references resolved, after `skip` characters. -/
def plainFrom : (skip : Nat) → List Char → List Char
  | _, [] => []
  | n + 1, _ :: cs => plainFrom n cs
  | 0, c :: cs =>
    if c = '\\' && cs.head?.any isAsciiPunctuation then cs.take 1 ++ plainFrom 1 cs
    else if c = '&' then
      match innerReference? cs with
      | some (found, n) => found ++ plainFrom n cs
      | none => c :: plainFrom 0 cs
    else c :: plainFrom 0 cs

/-- The characters with escapes and references resolved. -/
def plain (cs : List Char) : List Char := plainFrom 0 cs

/-- Blanks made one space each, and none at the ends. -/
def squeezed (cs : List Char) : List Char :=
  let rec go : List Char → List Char
    | [] => []
    | [c] => [c]
    | c :: d :: cs =>
      if isBlankChar c && isBlankChar d then go (d :: cs)
      else (if isBlankChar c then ' ' else c) :: go (d :: cs)
  go (trimBlanks cs)

/-- A label by which a link refers to a definition. Case and blanks make no difference. -/
def labelKey (cs : List Char) : Text := Text.upper (Text.lower (Text.ofChars (squeezed cs)))

end Localization.Markdown
