/-! Replacement of every occurrence of a pattern in a list, from left to right and without looking
at replaced parts again. -/

namespace Localization

variable {α : Type} [BEq α]

/-- `replaceGo pattern part skip xs` passes over `skip` items of `xs`, then replaces. -/
def replaceGo (pattern part : List α) : Nat → List α → List α
  | _, [] => []
  | n + 1, _ :: xs => replaceGo pattern part n xs
  | 0, x :: xs =>
    if pattern.isPrefixOf (x :: xs) then part ++ replaceGo pattern part (pattern.length - 1) xs
    else x :: replaceGo pattern part 0 xs

/-- Every occurrence of `pattern` replaced with `part`. An empty pattern occurs before every item
and at the end. -/
def replaceAll (pattern part xs : List α) : List α :=
  if pattern.isEmpty then xs.foldr (fun x rest => part ++ x :: rest) part
  else replaceGo pattern part 0 xs

/-- A pattern occurs somewhere in a list. -/
def occursIn (pattern : List α) : List α → Bool
  | [] => pattern.isEmpty
  | x :: xs => pattern.isPrefixOf (x :: xs) || occursIn pattern xs

/-- What follows `pattern` at the start of a list. -/
def stripPrefix? : (pattern : List α) → List α → Option (List α)
  | [], xs => some xs
  | _ :: _, [] => none
  | p :: ps, x :: xs => if p == x then stripPrefix? ps xs else none

/-- The parts of a list between the occurrences of a non-empty separator. -/
def splitGo (separator : List α) : Nat → List α → List α → List (List α)
  | _, part, [] => [part.reverse]
  | n + 1, part, _ :: xs => splitGo separator n part xs
  | 0, part, x :: xs =>
    if separator.isPrefixOf (x :: xs) then
      part.reverse :: splitGo separator (separator.length - 1) [] xs
    else splitGo separator 0 (x :: part) xs

/-- The parts of a list between the occurrences of a non-empty separator. -/
def splitAt (separator xs : List α) : List (List α) := splitGo separator 0 [] xs

end Localization
