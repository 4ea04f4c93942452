import Localization.Text.Blank
import Localization.Text.Order
import Localization.Text.Replace

/-! Placeholders: parts of a message that stay the same in every language. They are command links
such as `(command:name)`, icons such as `$(name)`, and anything in braces that holds no blank. -/

namespace Localization.Placeholder

/-- How many code points before the first blank. -/
def runLength (t : Text) : Nat := (t.takeWhile fun p => !p.isBlank).length

/-- Whether a code point may stand in the name of an icon. -/
def isIconChar : CodePoint → Bool
  | .char c => c.isAlpha || c == '-' || c == '~'
  | .surrogate _ => false

/-- The length of a command link at the start of a text: all up to the next blank belongs to it. -/
def commandLength? (t : Text) : Option Nat :=
  match stripPrefix? (Text.ofString "(command:") t with
  | some rest => if runLength rest = 0 then none else some (t.length - rest.length + runLength rest)
  | none => none

/-- The length of an icon at the start of a text. -/
def iconLength? (t : Text) : Option Nat :=
  match t with
  | .char '$' :: .char '(' :: rest =>
    let n := (rest.takeWhile isIconChar).length
    if n = 0 || (rest.drop n).head? ≠ some (.char ')') then none else some (n + 3)
  | _ => none

/-- The index of the last closing brace of a text, if something stands before it. -/
def lastBrace? (t : Text) : Option Nat :=
  match (t.reverse.dropWhile fun p => !p.isChar '}').length with
  | n + 2 => some (n + 1)
  | _ => none

/-- The length of a placeholder in braces at the start of a text: it ends with the last closing
brace before the next blank. -/
def braceLength? (t : Text) : Option Nat :=
  match t with
  | .char '{' :: rest => (lastBrace? (rest.take (runLength rest))).map (· + 2)
  | _ => none

/-- The length of the placeholder that a text begins with. -/
def length? (t : Text) : Option Nat :=
  (commandLength? t).or ((iconLength? t).or (braceLength? t))

/-- A piece of a message: a placeholder, or what stands between placeholders. -/
inductive Piece where
  | gap (t : Text)
  | placeholder (t : Text)
  deriving DecidableEq, Repr

def Piece.text : Piece → Text
  | .gap t => t
  | .placeholder t => t

/-- The text before the first placeholder, the placeholder, and what follows it. -/
def split? : Text → Option (Text × Text × Text)
  | [] => none
  | p :: t =>
    match length? (p :: t) with
    | some n => some ([], (p :: t).take n, (p :: t).drop n)
    | none => (split? t).map fun (before, found, rest) => (p :: before, found, rest)

/-- The pieces of a text, of which at most `fuel` are placeholders. -/
def piecesFrom : (fuel : Nat) → Text → List Piece
  | 0, t => [.gap t]
  | fuel + 1, t =>
    match split? t with
    | none => [.gap t]
    | some (before, found, rest) => .gap before :: .placeholder found :: piecesFrom fuel rest

/-- The pieces of a text, from left to right. -/
def pieces (t : Text) : List Piece := piecesFrom t.length t

def all (t : Text) : List Text :=
  (pieces t).filterMap fun
    | .gap _ => none
    | .placeholder p => some p

/-- The placeholders of a text, each at its first place. -/
def distinct (t : Text) : List Text := (all t).eraseDups

/-- The placeholders of a source that are none of a target text, in the order of their code
points. -/
def missing (source target : Text) : List Text :=
  let kept := all target
  ((distinct source).filter fun p => !kept.contains p).mergeSort Text.leByCodePoint

/-- What is said of a placeholder that is missing. -/
def missingMessage (p : Text) : Text := .ofString "Missing placeholder in translation: " ++ p

/-- What is said of the placeholders that a target text lacks. -/
def validate (source target : Text) : List Text :=
  (missing source target).map missingMessage

end Localization.Placeholder
