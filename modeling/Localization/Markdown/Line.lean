import Localization.Markdown.Character
import Localization.Text.Replace

/-! Lines of a document. Quotes and lists take the marks at the start of a line away, and columns
stay those of the document, since tabs reach to every fourth column. -/

namespace Localization.Markdown

/-- A line, or what a quote has left of it. -/
structure Line where
  body : List Char
  shift : Nat
  /-- The column of the content. It is negative if a paragraph of a quote goes on here without the
  mark of the quote. -/
  indent : Int
  origin : Nat
  ended : Bool
  deriving Repr, Inhabited

namespace Line

/-- The number of blanks at the start of characters and the column after them. -/
def blanks (origin column count : Nat) : List Char → Nat × Nat
  | '\t' :: cs => blanks origin (column + (4 - (column + origin) % 4)) (count + 1) cs
  | ' ' :: cs => blanks origin (column + 1) (count + 1) cs
  | _ => (count, column)

/-- The line with its indentation measured. -/
def ofBody (body : List Char) (ended : Bool) : Line :=
  let (shift, indent) := blanks 0 0 0 body
  { body, shift, indent, origin := 0, ended }

/-- The lines of a text. What follows the last line end is a line if it holds more than blanks. -/
def ofChars (cs : List Char) : List Line :=
  match (splitAt ['\n'] cs).reverse with
  | [] => []
  | last :: before =>
    (before.map (ofBody · true)).reverse ++
      if last.all isSpace then [] else [ofBody last false]

def content (l : Line) : List Char := l.body.drop l.shift

def isEmpty (l : Line) : Bool := l.content.isEmpty

def whole (l : Line) : List Char := l.content ++ if l.ended then ['\n'] else []

/-- What is left of characters after `width` columns. A tab that reaches farther leaves spaces, and
the first `shift` characters are blank whatever they are. -/
def unindent (origin shift width : Nat) (column place : Nat) : List Char → List Char
  | [] => List.replicate (column - width) ' '
  | c :: cs =>
    if width ≤ column then List.replicate (column - width) ' ' ++ c :: cs
    else if c = '\t' then
      unindent origin shift width (column + (4 - (column + origin) % 4)) (place + 1) cs
    else if c = ' ' || place < shift then unindent origin shift width (column + 1) (place + 1) cs
    else c :: cs

def text (l : Line) (width : Nat) : List Char := unindent l.origin l.shift width 0 0 l.body

/-- The text of lines without their first `width` columns, with all line ends but the last. -/
def textOf (width : Nat) : List Line → List Char
  | [] => []
  | [l] => l.text width
  | l :: ls => l.text width ++ '\n' :: textOf width ls

end Line

end Localization.Markdown
