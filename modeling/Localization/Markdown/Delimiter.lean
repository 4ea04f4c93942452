import Localization.Markdown.Character

/-! Signs of emphasis: which of them open and which close, and which opening one belongs to which
closing one. -/

namespace Localization.Markdown

/-- One sign of emphasis, or two of those that strike out. -/
structure Delimiter where
  sign : Char
  run : Nat
  /-- How many signs the run has; none are counted for those that strike out. -/
  length : Nat
  opens : Bool
  closes : Bool
  deriving Repr, Inhabited

namespace Delimiter

/-- Whether a run of signs between two characters opens and closes. Inside a word, an underscore
does neither. -/
def flanks (before after : Char) (insideWords : Bool) : Bool × Bool :=
  let markBefore := isPunctuation before
  let markAfter := isPunctuation after
  let left := !(isWhite after || markAfter && !(isWhite before || markBefore))
  let right := !(isWhite before || markBefore && !(isWhite after || markAfter))
  (left && (insideWords || !right || markBefore), right && (insideWords || !left || markAfter))

/-- Whether two signs are a pair. Where one of them could stand at either end, runs whose lengths
make a multiple of three do not match unless both lengths are multiples of three. -/
def isPair (first last : Delimiter) : Bool :=
  first.run != last.run && first.sign == last.sign && first.opens &&
    !((first.closes || last.opens) && (first.length + last.length) % 3 == 0 &&
      (first.length % 3 != 0 || last.length % 3 != 0))

/-- The pairs among numbered signs. `unpaired` holds the signs before, the nearest first; a pair
takes away those between its ends. -/
def pairsFrom (unpaired : List (Nat × Delimiter)) : List (Nat × Delimiter) → List (Nat × Nat)
  | [] => []
  | (n, d) :: ds =>
    if d.closes then
      match unpaired.dropWhile fun (_, o) => !isPair o d with
      | (m, _) :: below => (m, n) :: pairsFrom below ds
      | [] => pairsFrom ((n, d) :: unpaired) ds
    else pairsFrom ((n, d) :: unpaired) ds

/-- What a character of a run of delimiters comes to. -/
inductive Role where
  | opensEmphasis | closesEmphasis | opensStrong | closesStrong | opensStrike | closesStrike
  | absorbed
  deriving Repr, DecidableEq

/-- A sign of emphasis with its place among all parts of the text. -/
structure Placed where
  place : Nat
  sign : Char
  /-- The place of the closing sign, and its number among the signs. -/
  partner : Option (Nat × Nat)

/-- Whether two neighbouring opening signs, the second one first, make a strong one. -/
def Placed.isStrong (second first : Placed) : Bool :=
  match second.partner, first.partner with
  | some (place, number), some (place', number') =>
    number' == number + 1 && place' == place + 1 && first.sign == second.sign &&
      first.place + 1 == second.place
  | _, _ => false

/-- The roles of the signs of emphasis, from the last to the first. The first one is passed over if
it is `absorbed`. -/
def emphasisRoles (absorbed : Bool) : List Placed → List (Nat × Role)
  | [] => []
  | d :: ds =>
    match absorbed, d.partner with
    | false, some (last, _) =>
      if ds.head?.any d.isStrong then
        (d.place, .opensStrong) :: (last, .closesStrong) :: (d.place - 1, .absorbed) ::
          (last + 1, .absorbed) :: emphasisRoles true ds
      else (d.place, .opensEmphasis) :: (last, .closesEmphasis) :: emphasisRoles false ds
    | _, _ => emphasisRoles false ds

/-- The roles of signs, each of which comes with its place. -/
def roles (signs : List (Nat × Delimiter)) : List (Nat × Role) :=
  let pairs := pairsFrom [] (signs.mapIdx fun n (_, d) => (n, d))
  let placeOf (n : Nat) : Nat := (signs[n]?.map Prod.fst).getD 0
  let placed := signs.mapIdx fun n (place, d) =>
    ({ place, sign := d.sign, partner := (pairs.lookup n).map fun m => (placeOf m, m) } : Placed)
  let strikes := placed.flatMap fun d =>
    match d.sign, d.partner with
    | '~', some (last, _) => [(d.place, Role.opensStrike), (last, Role.closesStrike)]
    | _, _ => []
  let others := placed.map fun d => if d.sign = '~' then { d with partner := none } else d
  strikes ++ emphasisRoles false others.reverse

end Delimiter

end Localization.Markdown
