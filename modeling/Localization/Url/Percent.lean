import Localization.Text.Utf8

/-! Percent signs in addresses: a byte that an address may not hold is written as two digits in base
sixteen after a percent sign. -/

namespace Localization.Url.Percent

def hexDigit (n : Nat) : Char := (Nat.digitChar n).toUpper

def escapeByte (b : UInt8) : List Char := ['%', hexDigit (b.toNat / 16), hexDigit (b.toNat % 16)]

/-- A character as its bytes with percent signs. -/
def escapeChar (c : Char) : List Char := (Utf8.encodeChar c).flatMap escapeByte

def hexValue? (c : Char) : Option Nat :=
  if c.isDigit then some (c.toNat - '0'.toNat)
  else if 'a' ≤ c && c ≤ 'f' then some (c.toNat - 'a'.toNat + 10)
  else if 'A' ≤ c && c ≤ 'F' then some (c.toNat - 'A'.toNat + 10)
  else none

def isHexDigit (c : Char) : Bool := (hexValue? c).isSome

/-- Characters of an address that stand for themselves. -/
def isKept (c : Char) : Bool :=
  c.isAlphanum || ";/?:@&=+$,-_.!~*'()#".toList.contains c

/-- An address with everything escaped that it may not hold. What is escaped already stays. -/
def escape : List Char → List Char
  | '%' :: a :: b :: cs =>
    if isHexDigit a && isHexDigit b then '%' :: a :: b :: escape cs
    else escapeChar '%' ++ escape (a :: b :: cs)
  | c :: cs => (if isKept c then [c] else escapeChar c) ++ escape cs
  | [] => []

/-- The bytes of the escapes that characters begin with, and the characters after them. -/
def takeBytes : List Char → List UInt8 × List Char
  | '%' :: a :: b :: cs =>
    match hexValue? a, hexValue? b with
    | some x, some y =>
      let (bytes, rest) := takeBytes cs
      (UInt8.ofNat (16 * x + y) :: bytes, rest)
    | _, _ => ([], '%' :: a :: b :: cs)
  | cs => ([], cs)

/-- Characters that stay escaped when an address is shown. -/
def staysEscaped (c : Char) : Bool := ";/?:@&=+$,#%".toList.contains c

/-- How many bytes a sequence has that begins with a byte. -/
def sequenceLength (b : UInt8) : Nat :=
  if 0xC0 ≤ b && b < 0xE0 then 2
  else if 0xE0 ≤ b && b < 0xF0 then 3
  else if 0xF0 ≤ b && b < 0xF8 then 4
  else 1

/-- The characters of bytes to be shown. What encodes no character shows as U+FFFD. -/
def showBytes : (fuel : Nat) → List UInt8 → List Char
  | 0, _ => []
  | _, [] => []
  | fuel + 1, b :: bs =>
    if b < 0x80 then
      let c := Char.ofNat b.toNat
      (if staysEscaped c then escapeByte b else [c]) ++ showBytes fuel bs
    else
      let n := sequenceLength b
      let tail := bs.take (n - 1)
      if n = 1 || tail.length < n - 1 || tail.any fun t => !Utf8.isTail t then
        '\ufffd' :: showBytes fuel bs
      else
        match Utf8.decode (b :: tail) with
        | .ok cs => cs ++ showBytes fuel (bs.drop (n - 1))
        | .error _ => List.replicate n '\ufffd' ++ showBytes fuel (bs.drop (n - 1))

/-- An address to be shown, of at most `fuel` characters. -/
def showFrom : (fuel : Nat) → List Char → List Char
  | 0, _ => []
  | _, [] => []
  | fuel + 1, c :: cs =>
    match takeBytes (c :: cs) with
    | ([], _) => c :: showFrom fuel cs
    | (bytes, rest) => showBytes bytes.length bytes ++ showFrom fuel rest

/-- An address to be shown, with characters in place of their escapes. -/
def unescape (cs : List Char) : List Char := showFrom cs.length cs

end Localization.Url.Percent
