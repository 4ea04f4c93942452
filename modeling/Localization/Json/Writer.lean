import Localization.Json

/-! Writing a value as the text of a data file: two blanks for each level, and characters outside of
ASCII as themselves. A value can also be written in one line, in ASCII alone. -/

namespace Localization.Json

/-- The four hexadecimal digits of a code unit. -/
def hexDigits (n : Nat) : List Char :=
  [n / 4096 % 16, n / 256 % 16, n / 16 % 16, n % 16].map fun d =>
    Char.ofNat (if d < 10 then 48 + d else 87 + d)

/-- A code unit as an escape. -/
def unitEscape (n : Nat) : Text := .ofChars ('\\' :: 'u' :: hexDigits n)

/-- A code point inside a string. -/
def escaped : CodePoint → Text
  | .char '"' => .ofChars ['\\', '"']
  | .char '\\' => .ofChars ['\\', '\\']
  | .char '\n' => .ofChars ['\\', 'n']
  | .char '\r' => .ofChars ['\\', 'r']
  | .char '\t' => .ofChars ['\\', 't']
  | .char '\x08' => .ofChars ['\\', 'b']
  | .char '\x0c' => .ofChars ['\\', 'f']
  | p => if p.toNat < 0x20 then unitEscape p.toNat else [p]

/-- A code point inside a string that is written in ASCII alone. -/
def escapedAscii (p : CodePoint) : Text :=
  if p.toNat < 0x7F then escaped p else p.units16.flatMap unitEscape

/-- A text in quotes. -/
def quoted (escape : CodePoint → Text) (t : Text) : Text :=
  .char '"' :: t.flatMap escape ++ [.char '"']

/-- The break before an item or a closing bracket that is `n` levels deep. -/
def newline (n : Nat) : Text := .char '\n' :: List.replicate (2 * n) (.char ' ')

/-- Items or fields between brackets, each on a line of its own. -/
def bracketed (opening closing : Char) (indent : Nat) (items : List Text) : Text :=
  if items.isEmpty then [.char opening, .char closing]
  else
    .char opening :: newline (indent + 1)
      ++ Text.join (.char ',' :: newline (indent + 1)) items ++ newline indent ++ [.char closing]

/-- The characters of a value that has no parts. -/
def scalar (escape : CodePoint → Text) : Json → Text
  | .bool true => .ofString "true"
  | .bool false => .ofString "false"
  | .integer n => .ofString (toString n)
  | .decimal ds => .ofChars ds
  | .string t => quoted escape t
  | _ => .ofString "null"

mutual

/-- A value whose lines after the first are `indent` levels deep. -/
def renderAt (indent : Nat) : Json → Text
  | .array xs => bracketed '[' ']' indent (renderItems (indent + 1) xs)
  | .object fs => bracketed '{' '}' indent (renderFields (indent + 1) fs)
  | v => scalar escaped v

/-- The items of an array. -/
def renderItems (indent : Nat) : List Json → List Text
  | [] => []
  | v :: vs => renderAt indent v :: renderItems indent vs

/-- The fields of an object. -/
def renderFields (indent : Nat) : List (Text × Json) → List Text
  | [] => []
  | (k, v) :: fs =>
    (quoted escaped k ++ .char ':' :: .char ' ' :: renderAt indent v) :: renderFields indent fs

end

/-- The text of a value. -/
def render (v : Json) : Text := renderAt 0 v

mutual

/-- The text of a value in one line of ASCII. -/
def renderLine : Json → Text
  | .array xs => .char '[' :: Text.join (.ofString ", ") (lineItems xs) ++ [.char ']']
  | .object fs => .char '\x7b' :: Text.join (.ofString ", ") (lineFields fs) ++ [.char '\x7d']
  | v => scalar escapedAscii v

/-- The items of an array in one line. -/
def lineItems : List Json → List Text
  | [] => []
  | v :: vs => renderLine v :: lineItems vs

/-- The fields of an object in one line. -/
def lineFields : List (Text × Json) → List Text
  | [] => []
  | (k, v) :: fs =>
    (quoted escapedAscii k ++ .char ':' :: .char ' ' :: renderLine v) :: lineFields fs

end

end Localization.Json
