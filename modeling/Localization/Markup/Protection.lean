import Localization.Text.Blank

/-! Marks around placeholders in markup, which keep them from being translated. Tags are left
alone. -/

namespace Localization.Markup.Protection

/-- A piece of markup: a tag, or text between tags. -/
inductive Piece where
  | text (cs : List Char)
  | tag (cs : List Char)
  deriving DecidableEq, Repr

/-- The length of the tag that characters begin with: up to the first `>`, if something is before
it. -/
def tagLength? : List Char → Option Nat
  | '<' :: cs =>
    let n := (cs.takeWhile (· ≠ '>')).length
    if n = 0 || n = cs.length then none else some (n + 2)
  | _ => none

/-- The pieces of markup, with the text before backwards and `skip` characters to pass over. -/
def piecesFrom (before : List Char) : (skip : Nat) → List Char → List Piece
  | _, [] => [.text before.reverse]
  | n + 1, _ :: cs => piecesFrom before n cs
  | 0, c :: cs =>
    match tagLength? (c :: cs) with
    | some n => .text before.reverse :: .tag ((c :: cs).take n) :: piecesFrom [] (n - 1) cs
    | none => piecesFrom (c :: before) 0 cs

/-- The pieces of markup: text and tags in turn. -/
def pieces (cs : List Char) : List Piece := piecesFrom [] 0 cs

/-- A character that can stand between braces. -/
def isBraceChar (c : Char) : Bool :=
  c != '{' && c != '}' && c != '<' && c != '>' && !isBlankChar c

def isIconChar (c : Char) : Bool := c.isAlpha || c == '-' || c == '~'

/-- The length of the placeholder that text begins with. -/
def placeholderLength? : List Char → Option Nat
  | '{' :: cs =>
    let n := (cs.takeWhile isBraceChar).length
    if n = 0 || (cs.drop n).head? ≠ some '}' then none else some (n + 2)
  | '$' :: '(' :: cs =>
    let n := (cs.takeWhile isIconChar).length
    if n = 0 || (cs.drop n).head? ≠ some ')' then none else some (n + 3)
  | _ => none

def openMark : List Char := "<span class=\"notranslate\" translate=\"no\">".toList

def closeMark : List Char := "</span>".toList

/-- Text with marks around its placeholders, after `skip` characters of one that is open. -/
def markFrom : (skip : Nat) → List Char → List Char
  | _, [] => []
  | 1, c :: cs => c :: closeMark ++ markFrom 0 cs
  | n + 2, c :: cs => c :: markFrom (n + 1) cs
  | 0, c :: cs =>
    match placeholderLength? (c :: cs) with
    | some n => openMark ++ c :: markFrom (n - 1) cs
    | none => c :: markFrom 0 cs

/-- Text with marks around its placeholders. Text that begins with `<` opens a tag that is not
finished, and stays as it is. -/
def markText (cs : List Char) : List Char := if cs.head? = some '<' then cs else markFrom 0 cs

/-- Markup with marks around the placeholders in its text. -/
def protect (cs : List Char) : List Char :=
  (pieces cs).flatMap fun
    | .text t => markText t
    | .tag t => t

end Localization.Markup.Protection
