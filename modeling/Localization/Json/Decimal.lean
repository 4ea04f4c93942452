/-! Numbers as data files write them in decimal, and which of them are zero. A number with a point or
an exponent is rounded to a double; one that is too small for any of these rounds to zero. -/

namespace Localization

/-- The number that digits write. -/
def natOfDigits (ds : List Char) : Nat := ds.foldl (fun n c => 10 * n + (c.toNat - 48)) 0

/-- The size of a number: its digits, as they stand without the point, times a power of ten. -/
structure Decimal where
  digits : List Char
  scale : Int
  deriving DecidableEq, Repr

namespace Decimal

/-- The power of ten that the characters behind the letter of an exponent write. -/
def power : List Char → Int
  | '-' :: ds => -natOfDigits ds
  | '+' :: ds => natOfDigits ds
  | ds => natOfDigits ds

/-- The size of the number that characters write. That of `NaN` and of an infinity has no digits. -/
def ofChars (cs : List Char) : Decimal :=
  let mantissa := cs.takeWhile fun c => c != 'e' && c != 'E'
  let places := ((mantissa.dropWhile (· != '.')).drop 1).length
  { digits := mantissa.filter Char.isDigit
    scale := power (cs.drop (mantissa.length + 1)) - places }

/-- Whether a number of `count` digits rounds to zero once the point is moved `places` to the left:
it is not more than half of the least positive double, which is `2 ^ -1074`. Against many places
the count of the digits decides. -/
def vanishes (n count places : Nat) : Bool :=
  count + 324 ≤ places || n <<< 1075 ≤ Nat.pow 10 places

/-- Whether the number is zero once it is rounded. -/
def isZero (d : Decimal) : Bool :=
  let n := natOfDigits d.digits
  !d.digits.isEmpty && (n == 0 || d.scale < 0 && vanishes n d.digits.length d.scale.natAbs)

end Decimal

end Localization
