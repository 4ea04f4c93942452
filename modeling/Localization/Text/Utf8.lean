import Localization.Text

/-! The encoding UTF-8: every character is one to four bytes. A sequence is accepted only if it is
the shortest one for its character, and surrogates have none. Bytes that are part of no character are
a fault, unless something stands for them. -/

namespace Localization.Utf8

/-- The bytes of a character. -/
def encodeChar (c : Char) : List UInt8 :=
  let n := c.toNat
  let tail (m : Nat) : UInt8 := UInt8.ofNat (0x80 + m % 0x40)
  if n < 0x80 then [UInt8.ofNat n]
  else if n < 0x800 then [UInt8.ofNat (0xC0 + n / 0x40), tail n]
  else if n < 0x10000 then [UInt8.ofNat (0xE0 + n / 0x1000), tail (n / 0x40), tail n]
  else [UInt8.ofNat (0xF0 + n / 0x40000), tail (n / 0x1000), tail (n / 0x40), tail n]

/-- The bytes of characters. -/
def encode (cs : List Char) : List UInt8 := cs.flatMap encodeChar

/-- Whether a byte may follow the first one of a sequence. -/
def isTail (b : UInt8) : Bool := 0x80 ≤ b && b < 0xC0

/-- What the first byte of a sequence says: how many bytes follow, what the second byte may be if
the sequence is the shortest one of a character, and the high bits of the character's number. -/
structure Lead where
  tails : Nat
  least : UInt8
  most : UInt8
  bits : Nat
  deriving DecidableEq, Repr

/-- What a byte says at the beginning of a sequence; nothing if no sequence begins with it. -/
def lead? (a : UInt8) : Option Lead :=
  if a < 0x80 then some ⟨0, 0x80, 0xBF, a.toNat⟩
  else if a < 0xC2 then none
  else if a < 0xE0 then some ⟨1, 0x80, 0xBF, a.toNat - 0xC0⟩
  else if a < 0xF0 then
    some ⟨2, if a = 0xE0 then 0xA0 else 0x80, if a = 0xED then 0x9F else 0xBF, a.toNat - 0xE0⟩
  else if a < 0xF5 then
    some ⟨3, if a = 0xF0 then 0x90 else 0x80, if a = 0xF4 then 0x8F else 0xBF, a.toNat - 0xF0⟩
  else none

/-- What is wrong with bytes that are part of no character. -/
inductive Reason where
  | start
  | tail
  | end_
  deriving DecidableEq, Repr

/-- What is said of a reason. -/
def Reason.message : Reason → String
  | .start => "invalid start byte"
  | .tail => "invalid continuation byte"
  | .end_ => "unexpected end of data"

/-- Bytes that are part of no character: where they begin, how many they are, and the first one. -/
structure Fault where
  reason : Reason
  offset : Nat
  count : Nat
  first : UInt8
  deriving DecidableEq, Repr

/-- What is said of bytes that are part of no character. -/
def Fault.message (f : Fault) : String :=
  let place :=
    if f.count = 1 then
      "byte 0x" ++ String.ofList (Nat.toDigits 16 f.first.toNat) ++ " in position " ++
        toString f.offset
    else "bytes in position " ++ toString f.offset ++ "-" ++ toString (f.offset + f.count - 1)
  "'utf-8' codec can't decode " ++ place ++ ": " ++ f.reason.message

/-- The number that `n` more bytes complete, and the bytes after them; else what is wrong, and how
many bytes came before it. The first of the bytes is between `least` and `most`. -/
def tailsFrom (least most : UInt8) (bits count : Nat) :
    (n : Nat) → List UInt8 → Except (Reason × Nat) (Nat × List UInt8)
  | 0, bytes => .ok (bits, bytes)
  | _ + 1, [] => .error (.end_, count)
  | n + 1, b :: bytes =>
    if least ≤ b ∧ b ≤ most then
      tailsFrom 0x80 0xBF (bits * 0x40 + (b.toNat - 0x80)) (count + 1) n bytes
    else .error (.tail, count)

/-- The first character of bytes that begin with `a`, and the bytes after it. -/
def next (a : UInt8) (bytes : List UInt8) : Except (Reason × Nat) (Char × List UInt8) :=
  match lead? a with
  | none => .error (.start, 1)
  | some l =>
    (tailsFrom l.least l.most l.bits 1 l.tails bytes).map fun (n, rest) => (Char.ofNat n, rest)

/-- What stands for bytes that are part of no character, and how many bytes it takes the place of.
It is told how many bytes are at fault, and gets all bytes from the first one of these on. -/
abbrev Repair (α : Type) := Nat → List UInt8 → Option (α × Nat)

section Decoding

variable {α : Type} (keep : Char → α) (repair : Repair α)

/-- What bytes, of which there are at most `fuel`, are decoded to, after what came before them. -/
def decodeFrom (size : Nat) : (fuel : Nat) → List α → List UInt8 → Except Fault (List α)
  | _, before, [] => .ok before.reverse
  | 0, before, _ => .ok before.reverse
  | fuel + 1, before, a :: bytes =>
    match next a bytes with
    | .ok (c, rest) => decodeFrom size fuel (keep c :: before) rest
    | .error (reason, count) =>
      match repair count (a :: bytes) with
      | some (p, n) => decodeFrom size fuel (p :: before) ((a :: bytes).drop n)
      | none => .error ⟨reason, size - (bytes.length + 1), count, a⟩

/-- What bytes are decoded to, or the first bytes that are part of nothing. -/
def decodeWith (bytes : List UInt8) : Except Fault (List α) :=
  decodeFrom keep repair bytes.length bytes.length [] bytes

end Decoding

/-- The characters of bytes, or the first bytes that are part of none. -/
def decode : List UInt8 → Except Fault (List Char) := decodeWith id fun _ _ => none

/-- The surrogate that three bytes spell as if it were a character. -/
def surrogate? : List UInt8 → Option CodePoint
  | a :: b :: c :: _ =>
    if a = 0xED ∧ 0xA0 ≤ b ∧ isTail b ∧ isTail c then
      CodePoint.ofNat? (0xD000 + b.toNat % 0x40 * 0x40 + c.toNat % 0x40)
    else none
  | _ => none

/-- The text of bytes in which surrogates may stand alone. -/
def decodeText : List UInt8 → Except Fault Text :=
  decodeWith .char fun _ bytes => (surrogate? bytes).map fun p => (p, 3)

/-- The characters of bytes, with U+FFFD for every sequence that is part of none. -/
def decodeLossy (bytes : List UInt8) : List Char :=
  ((decodeWith id fun count _ => some ('\ufffd', count)) bytes).toOption.getD []

end Localization.Utf8
