import Localization.Text.CaseData
import Localization.Text.Order

/-! Changes of case by the mappings of Unicode, and the order of names in which case matters last. A
capital sigma at the end of a word has a lower-case form of its own. -/

namespace Localization.Text

namespace Case

/-- Whether a number is in one of the ranges. -/
def inRanges (ranges : List (Nat × Nat)) (n : Nat) : Bool :=
  ranges.any fun r => r.1 ≤ n && n ≤ r.2

/-- The code point that a number in one of the runs moves to. -/
def moved? : List Run → Nat → Option Nat
  | [], _ => none
  | r :: rest, n =>
    if n < r.first then none
    else if n ≤ r.last && (n - r.first) % r.step == 0 then some ((n : Int) + r.distance).toNat
    else moved? rest n

/-- The mapping of a code point by tables. -/
def mapped? (runs : List Run) (long : List (Nat × List Nat)) (p : CodePoint) : Option Text :=
  match moved? runs p.toNat with
  | some n => some [CodePoint.ofNat n]
  | none => (long.find? (·.1 == p.toNat)).map fun e => e.2.map CodePoint.ofNat

/-- A character in small letters, wherever it stands. -/
def lowerOf (p : CodePoint) : Text := (mapped? lowerRuns lowerLong p).getD [p]

/-- Whether the first code point that is not passed over has a case. -/
def nextCased (t : Text) : Bool :=
  match t.find? fun p => !inRanges ignorableRanges p.toNat with
  | some p => inRanges casedRanges p.toNat
  | none => false

end Case

open Case

private def lowerFrom (before : Text) : Text → Text
  | [] => []
  | p :: t =>
    let form : Text :=
      if p = .char 'Σ' then
        if nextCased before && !nextCased t then [.char 'ς'] else [.char 'σ']
      else lowerOf p
    form ++ lowerFrom (p :: before) t

def lower (t : Text) : Text := lowerFrom [] t

/-- Upper-case letters in lower case and the other way round, given the text before, backwards. -/
private def swapFrom (before : Text) : Text → Text
  | [] => []
  | p :: t =>
    let form : Text :=
      if p = .char 'Σ' then
        if nextCased before && !nextCased t then [.char 'ς'] else [.char 'σ']
      else if inRanges titleRanges p.toNat then [p]
      else (mapped? upperRuns upperLong p).getD (lowerOf p)
    form ++ swapFrom (p :: before) t

/-- Text with upper-case letters in lower case and the other way round. -/
def swapCase (t : Text) : Text := swapFrom [] t

/-- The upper-case form of a code point that is no title-case letter. -/
private def upperOf (p : CodePoint) : Text := (mapped? upperRuns upperLong p).getD [p]

/-- Text in upper case. A title-case letter goes by way of its lower-case form. -/
def upper (t : Text) : Text :=
  t.flatMap fun p => if inRanges titleRanges p.toNat then (lowerOf p).flatMap upperOf else upperOf p

/-- A text as it is compared without regard to case. -/
def fold (t : Text) : Text := t.flatMap fun p => (mapped? foldRuns foldLong p).getD (lowerOf p)

/-- Whether a name comes no later than another: case is left out, then lower case goes first. -/
def nameLe (a b : Text) : Bool :=
  let fa := fold a
  let fb := fold b
  if fa = fb then leByCodePoint (swapCase a) (swapCase b) else leByCodePoint fa fb

end Localization.Text
