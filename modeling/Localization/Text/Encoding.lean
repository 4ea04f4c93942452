import Localization.Text.Utf8

/-! The encodings in which data are sent: UTF-8, UTF-16 and UTF-32. A mark at the beginning tells the
encoding; without one the zeros among the first bytes do, since data begin with ASCII. A surrogate
may stand alone in each of them. -/

namespace Localization

/-- How text is encoded in units of one, two or four bytes. `big` says whether the higher bytes of a
unit come first. -/
inductive Encoding where
  | utf8
  | utf16 (big : Bool)
  | utf32 (big : Bool)
  deriving DecidableEq, Repr

namespace Encoding

/-- The marks of encodings. The mark of UTF-32 begins with that of UTF-16 and so is sought first. -/
def marks : List (List UInt8 × Encoding) :=
  [([0x00, 0x00, 0xFE, 0xFF], .utf32 true), ([0xFF, 0xFE, 0x00, 0x00], .utf32 false),
   ([0xFE, 0xFF], .utf16 true), ([0xFF, 0xFE], .utf16 false), ([0xEF, 0xBB, 0xBF], .utf8)]

/-- The encoding of bytes without a mark. -/
def unmarked : List UInt8 → Encoding
  | a :: b :: c :: d :: _ =>
    if a = 0 then if b = 0 then .utf32 true else .utf16 true
    else if b = 0 then if c = 0 ∧ d = 0 then .utf32 false else .utf16 false
    else .utf8
  | [a, b] => if a = 0 then .utf16 true else if b = 0 then .utf16 false else .utf8
  | _ => .utf8

/-- The numbers that pairs of numbers below `base` write, the higher one first if `big`; nothing if
one is left over. -/
def paired? (base : Nat) (big : Bool) : List Nat → Option (List Nat)
  | [] => some []
  | [_] => none
  | a :: b :: rest =>
    (paired? base big rest).map ((if big then a * base + b else b * base + a) :: ·)

/-- The text of bytes in an encoding; nothing if they are not of it. -/
def decode? (bytes : List UInt8) : Encoding → Option Text
  | .utf8 => (Utf8.decodeText bytes).toOption
  | .utf16 big =>
    (paired? 0x100 big (bytes.map UInt8.toNat)).map fun units =>
      Text.joinSurrogates (units.map CodePoint.ofNat)
  | .utf32 big => do
    let halves ← paired? 0x100 big (bytes.map UInt8.toNat)
    let units ← paired? 0x10000 big halves
    units.mapM CodePoint.ofNat?

end Encoding

/-- The text of data in whatever encoding; nothing if the bytes are not of it. -/
def Text.ofBytes? (bytes : List UInt8) : Option Text :=
  match Encoding.marks.find? fun m => m.1.isPrefixOf bytes with
  | some (mark, encoding) => encoding.decode? (bytes.drop mark.length)
  | none => (Encoding.unmarked bytes).decode? bytes

end Localization
