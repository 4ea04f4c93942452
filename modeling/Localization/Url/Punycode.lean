/-! Labels of host names in ASCII. The characters outside of ASCII follow the others as numbers:
each is the distance to the one before it, in order of code points and places, written with digits
of variable weight. -/

namespace Localization.Url.Punycode

/-- The letter or digit that writes a number below 36. -/
def digitChar (d : Nat) : Char :=
  if d < 26 then Char.ofNat ('a'.toNat + d) else Char.ofNat ('0'.toNat + (d - 26))

/-- The number below 36 that a letter or digit writes. -/
def digitValue? (c : Char) : Option Nat :=
  if 'a' ≤ c && c ≤ 'z' then some (c.toNat - 'a'.toNat)
  else if 'A' ≤ c && c ≤ 'Z' then some (c.toNat - 'A'.toNat)
  else if '0' ≤ c && c ≤ '9' then some (c.toNat - '0'.toNat + 26)
  else none

/-- The least value of a last digit at a position. -/
def threshold (position bias : Nat) : Nat := max 1 (min 26 (36 * (position + 1) - bias))

theorem threshold_bounds (position bias : Nat) :
    1 ≤ threshold position bias ∧ threshold position bias ≤ 26 := by
  unfold threshold; omega

/-- The divisions that bring a distance down, and what is left of it. -/
def settle (divisions distance : Nat) : Nat × Nat :=
  if 455 < distance then settle (divisions + 36) (distance / 35) else (divisions, distance)
termination_by distance
decreasing_by exact Nat.div_lt_self (by omega) (by omega)

/-- The bias after a distance, when `count` characters are known. -/
def adapt (distance : Nat) (isFirst : Bool) (count : Nat) : Nat :=
  let halved := if isFirst then distance / 700 else distance / 2
  let (divisions, rest) := settle 0 (halved + halved / count)
  divisions + 36 * rest / (rest + 38)

/-- A distance as digits, of which the last one is below its threshold. -/
def digits (bias position distance : Nat) : List Char :=
  let t := threshold position bias
  if distance < t then [digitChar distance]
  else digitChar (t + (distance - t) % (36 - t)) ::
    digits bias (position + 1) ((distance - t) / (36 - t))
termination_by distance
decreasing_by
  have bounds := threshold_bounds position bias
  calc (distance - threshold position bias) / (36 - threshold position bias)
      ≤ distance - threshold position bias := Nat.div_le_self _ _
    _ < distance := by omega

/-- What encoding has come to. -/
structure Written where
  text : List Char
  distance : Nat
  bias : Nat
  count : Nat

/-- Passes a character of a label while those with number `n` are written. -/
def Written.pass (base n : Nat) (w : Written) (c : Char) : Written :=
  if c.toNat < n then { w with distance := w.distance + 1 }
  else if c.toNat = n then
    { text := w.text ++ digits w.bias 0 w.distance
      distance := 0
      bias := adapt w.distance (w.count == base) (w.count + 1)
      count := w.count + 1 }
  else w

/-- Writes the characters with the numbers `ns`, which are all those after `before` in order. -/
def Written.all (label : List Char) (base before : Nat) (w : Written) : List Nat → Written
  | [] => w
  | n :: ns =>
    let w := { w with distance := w.distance + (n - before) * (w.count + 1) }
    let w := label.foldl (Written.pass base n) w
    Written.all label base (n + 1) { w with distance := w.distance + 1 } ns

def encode (label : List Char) : List Char :=
  let base := label.filter fun c => c.toNat < 0x80
  let others := ((label.filter fun c => 0x80 ≤ c.toNat).map Char.toNat).eraseDups.mergeSort
  let w := Written.all label base.length 0x80 ⟨[], 0, 72, base.length⟩ others
  if base.isEmpty then w.text else base ++ '-' :: w.text

/-- A distance at the start of digits, and the digits after it. -/
def readDistance (bias : Nat) : (position weight : Nat) → List Char → Option (Nat × List Char)
  | _, _, [] => none
  | position, weight, c :: cs => do
    let d ← digitValue? c
    let t := threshold position bias
    if d < t then some (d * weight, cs)
    else
      let (rest, cs) ← readDistance bias (position + 1) (weight * (36 - t)) cs
      return (d * weight + rest, cs)

/-- Puts the characters of digits into a label. The next one has the number `n`, or stands after
`place` characters and has a higher number. -/
def insertAll : (fuel : Nat) → (n place bias : Nat) → (isFirst : Bool) → List Char → List Char →
    Option (List Char)
  | _, _, _, _, _, label, [] => some label
  | 0, _, _, _, _, _, _ => none
  | fuel + 1, n, place, bias, isFirst, label, cs => do
    let (distance, cs) ← readDistance bias 0 1 cs
    let place := place + distance
    let n := n + place / (label.length + 1)
    let place := place % (label.length + 1)
    if h : n.isValidChar then
      let label := label.take place ++ Char.ofNatAux n h :: label.drop place
      insertAll fuel n (place + 1) (adapt distance isFirst label.length) false label cs
    else none

def decode? (written : List Char) : Option (List Char) :=
  if written.any fun c => 0x80 ≤ c.toNat then none
  else
    let tail := (written.reverse.takeWhile (· ≠ '-')).reverse
    let base := written.take (written.length - tail.length - 1)
    insertAll (tail.length + 1) 0x80 0 72 true base tail

end Localization.Url.Punycode
