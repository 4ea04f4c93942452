import Localization.Text

/-! Escape sequences of string and template literals. `unescape` turns what stands between the
quotes of a literal into the text that it denotes, in one pass from left to right; two escapes that
spell a high and a low surrogate are joined at the end. -/

namespace Localization.Script

/-- Why the inside of a literal denotes no text. Each cause carries the characters it names. -/
inductive EscapeError where
  /-- Too few digits, a digit that is not hexadecimal, or a number above U+10FFFF. -/
  | invalid (escape : List Char)
  | unterminated (escape : List Char)
  deriving DecidableEq, Repr

def EscapeError.message : EscapeError → String
  | .invalid e => "Invalid escape sequence '" ++ String.ofList e ++ "'"
  | .unterminated e => "Unterminated unicode escape '" ++ String.ofList e ++ "'"

/-- The value of a hexadecimal digit of either case. -/
def hexDigit? (c : Char) : Option Nat :=
  if '0' ≤ c ∧ c ≤ '9' then some (c.toNat - '0'.toNat)
  else if 'a' ≤ c ∧ c ≤ 'f' then some (c.toNat - 'a'.toNat + 10)
  else if 'A' ≤ c ∧ c ≤ 'F' then some (c.toNat - 'A'.toNat + 10)
  else none

/-- The number that hexadecimal digits write after `acc`; nothing if one of them is no digit. -/
def hexFrom? (acc : Nat) : List Char → Option Nat
  | [] => some acc
  | c :: cs => (hexDigit? c).bind fun d => hexFrom? (16 * acc + d) cs

/-- The number that one or more hexadecimal digits write. -/
def hex? : List Char → Option Nat
  | [] => none
  | cs => hexFrom? 0 cs

/-- The code point that `digits` write in the escape sequence `escape`. -/
def hexEscape (digits escape : List Char) : Except EscapeError CodePoint :=
  match (hex? digits).bind CodePoint.ofNat? with
  | some p => .ok p
  | none => .error (.invalid escape)

/-- What the escape sequence with the characters `after` behind its backslash stands for, and how
many of these characters belong to it. A backslash at the end stands for itself. -/
def escapeAfter : List Char → Except EscapeError (CodePoint × Nat)
  | [] => .ok (.char '\\', 0)
  | 'n' :: _ => .ok (.char '\n', 1)
  | 'r' :: _ => .ok (.char '\r', 1)
  | 't' :: _ => .ok (.char '\t', 1)
  | 'x' :: rest =>
    let digits := rest.take 2
    let escape := '\\' :: 'x' :: digits
    if digits.length = 2 then (hexEscape digits escape).map (·, 3) else .error (.invalid escape)
  | 'u' :: '{' :: rest =>
    let digits := rest.takeWhile (· ≠ '}')
    if digits.length = rest.length then .error (.unterminated ('\\' :: 'u' :: '{' :: rest.take 9))
    else (hexEscape digits ('\\' :: 'u' :: '{' :: digits ++ ['}'])).map (·, digits.length + 3)
  | 'u' :: rest =>
    let digits := rest.take 4
    let escape := '\\' :: 'u' :: digits
    if digits.length = 4 then (hexEscape digits escape).map (·, 5) else .error (.invalid escape)
  | c :: _ => .ok (.char c, 1)

/-- Passes over `skip` characters, then replaces escape sequences. -/
def unescapeFrom : (skip : Nat) → List Char → Except EscapeError Text
  | _, [] => .ok []
  | n + 1, _ :: cs => unescapeFrom n cs
  | 0, c :: cs =>
    if c = '\\' then
      match escapeAfter cs with
      | .error e => .error e
      | .ok (p, used) => (unescapeFrom used cs).map (p :: ·)
    else (unescapeFrom 0 cs).map (.char c :: ·)

/-- The text that the inside of a literal denotes. -/
def unescape (cs : List Char) : Except EscapeError Text := (unescapeFrom 0 cs).map Text.joinSurrogates

end Localization.Script
