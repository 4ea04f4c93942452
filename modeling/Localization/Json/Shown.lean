import Localization.Json
import Localization.Text.Blank

/-! Values as messages show them: a text as it is, and a text inside another value in quotes. -/

namespace Localization.Json

/-- A number in base sixteen with at least `width` digits. -/
def hexText (width n : Nat) : Text :=
  let digits := Nat.toDigits 16 n
  .ofChars (List.replicate (width - digits.length) '0' ++ digits)

/-- Whether a code point shows as itself in quotes. -/
def isVisible : CodePoint → Bool
  | .char c => c = ' ' || !isBlankChar c && 0x20 ≤ c.toNat && !(0x7F ≤ c.toNat && c.toNat ≤ 0x9F) &&
      c.toNat != 0xAD && !(0x200B ≤ c.toNat && c.toNat ≤ 0x200F) && c.toNat != 0xFEFF
  | .surrogate _ => false

/-- A code point between quotes of one kind. -/
def shownCodePoint (quote : Char) (p : CodePoint) : Text :=
  if p.isChar '\\' || p.isChar quote then [.char '\\', p]
  else if p.isChar '\n' then .ofString "\\n"
  else if p.isChar '\r' then .ofString "\\r"
  else if p.isChar '\t' then .ofString "\\t"
  else if isVisible p then [p]
  else if p.toNat < 0x100 then .ofString "\\x" ++ hexText 2 p.toNat
  else if p.toNat < 0x10000 then .ofString "\\u" ++ hexText 4 p.toNat
  else .ofString "\\U" ++ hexText 8 p.toNat

/-- A text in single quotes, or in double ones if it holds single ones alone. -/
def shownText (t : Text) : Text :=
  let quote :=
    if t.any (CodePoint.isChar '\x27') && !t.any (CodePoint.isChar '"') then '"' else '\x27'
  .char quote :: t.flatMap (shownCodePoint quote) ++ [.char quote]

mutual

/-- A value as it is shown inside another one. -/
def shownInside : Json → Text
  | .null => .ofString "None"
  | .bool b => .ofString (if b then "True" else "False")
  | .integer n => .ofString (toString n)
  | .decimal digits => .ofChars digits
  | .string t => shownText t
  | .array xs => .char '[' :: Text.join (.ofString ", ") (shownItems xs) ++ [.char ']']
  | .object fs => .char '\x7b' :: Text.join (.ofString ", ") (shownFields fs) ++ [.char '\x7d']

def shownItems : List Json → List Text
  | [] => []
  | v :: vs => shownInside v :: shownItems vs

def shownFields : List (Text × Json) → List Text
  | [] => []
  | (k, v) :: fs => (shownText k ++ .ofString ": " ++ shownInside v) :: shownFields fs

end

/-- A value as it is shown by itself: a text without quotes. -/
def shown : Json → Text
  | .string t => t
  | v => shownInside v

end Localization.Json
