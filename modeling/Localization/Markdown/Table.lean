import Localization.Markdown.Block
import Localization.Markdown.Line
import Localization.Text.Blank
import Localization.Text.Replace

/-! Rows of tables. -/

namespace Localization.Markdown.Table

/-- The pieces of a row between vertical bars. A bar after a backslash belongs to its piece, without
the backslash. `piece` holds the characters of the piece so far, the last one first. -/
def split (escaped : Bool) (piece : List Char) : List Char → List (List Char)
  | [] => [piece.reverse]
  | c :: cs =>
    if c = '|' then
      if escaped then split false ('|' :: piece.drop 1) cs else piece.reverse :: split false [] cs
    else split (c = '\\') (c :: piece) cs

def cells (l : Line) : List (List Char) :=
  let pieces := split false [] (trimBlanks l.content)
  let pieces := if pieces.head? = some [] then pieces.drop 1 else pieces
  let pieces := if pieces.getLast? = some [] then pieces.dropLast else pieces
  pieces.map trimBlanks

/-- The alignment that a cell of the second row asks for. -/
def alignment? (cs : List Char) : Option Alignment :=
  let left := cs.head? == some ':'
  let cs := if left then cs.drop 1 else cs
  let right := cs.getLast? == some ':'
  let cs := if right then cs.dropLast else cs
  if cs.isEmpty || !cs.all (· == '-') then none
  else some <| match left, right with
    | true, true => .center
    | true, false => .left
    | false, true => .right
    | false, false => .unset

/-- The alignments that the line below the head of a table sets. -/
def alignments? (l : Line) : Option (List Alignment) :=
  let cs := l.content
  let isMark (c : Char) : Bool := c == '|' || c == '-' || c == ':'
  match cs with
  | c :: d :: _ =>
    if !isMark c || !cs.all (fun c => isMark c || isSpace c) || c = '-' && isSpace d then none
    else
      let pieces := (splitAt ['|'] cs).map trimBlanks
      let pieces := if pieces.head? = some [] then pieces.drop 1 else pieces
      let pieces := if pieces.getLast? = some [] then pieces.dropLast else pieces
      pieces.mapM alignment?
  | _ => none

/-- The most cells that are added to rows which have too few. -/
def maxAdded : Int := 65536

def fill (columns : Nat) (row : List (List Char)) : List (List Char) :=
  row.take columns ++ List.replicate (columns - row.length) []

end Localization.Markdown.Table
