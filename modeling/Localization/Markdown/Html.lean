import Localization.Markdown.Document
import Localization.Markup.Entity
import Localization.Text.Case

/-! Documents as hypertext. -/

namespace Localization.Markdown

namespace Html

/-- A value of an attribute with its name. -/
def attr (name : String) (value : List Char) : List Char :=
  ' ' :: name.toList ++ "=\"".toList ++ Markup.escape value ++ ['"']

def title (cs : List Char) : List Char := if cs.isEmpty then [] else attr "title" cs

def tagName : Mark → List Char
  | .emphasis => "em".toList
  | .strong => "strong".toList
  | .strike => "s".toList

/-- Spans as text with tags. -/
def spans : List Span → List Char
  | [] => []
  | .text cs :: rest => Markup.escape cs ++ spans rest
  | .literal cs :: rest => Markup.escape cs ++ spans rest
  | .code cs :: rest => "<code>".toList ++ Markup.escape cs ++ "</code>".toList ++ spans rest
  | .softBreak :: rest => '\n' :: spans rest
  | .hardBreak :: rest => "<br>\n".toList ++ spans rest
  | .opened mark :: rest => '<' :: tagName mark ++ '>' :: spans rest
  | .closed mark :: rest => '<' :: '/' :: tagName mark ++ '>' :: spans rest
  | .link href name body :: rest =>
    "<a".toList ++ attr "href" href ++ title name ++ '>' :: spans body ++ "</a>".toList ++
      spans rest
  | .image source name text :: rest =>
    "<img".toList ++ attr "src" source ++ attr "alt" text ++ title name ++ '>' :: spans rest

def text (definitions : Definitions) (cs : List Char) : List Char :=
  spans (Inline.spans definitions cs)

/-- The code between two tags, with the language that the remark after its fence names. -/
def code (fence : Option (List Char)) (cs : List Char) : List Char :=
  let remark := trimBlanks (plain (fence.getD []))
  let language := remark.takeWhile fun c => !isBlankChar c
  let attr :=
    if language.isEmpty then [] else attr "class" ("language-".toList ++ language)
  "<pre><code".toList ++ attr ++ '>' :: Markup.escape cs ++ "</code></pre>\n".toList

def alignment : Alignment → List Char
  | .unset => []
  | .left => attr "style" "text-align:left".toList
  | .center => attr "style" "text-align:center".toList
  | .right => attr "style" "text-align:right".toList

/-- A row of cells, each in a tag of this name. -/
def row (definitions : Definitions) (name : String) (columns : List Alignment)
    (cells : List (List Char)) : List Char :=
  let cell (column : Alignment) (cs : List Char) : List Char :=
    '<' :: name.toList ++ alignment column ++ '>' :: text definitions cs ++
      "</".toList ++ name.toList ++ ">\n".toList
  "<tr>\n".toList ++ (List.zipWith cell columns cells).flatten ++ "</tr>\n".toList

/-- A table, with a body only if it has rows. -/
def table (definitions : Definitions) (columns : List Alignment) (head : List (List Char))
    (rows : List (List (List Char))) : List Char :=
  let body := rows.flatMap (row definitions "td" columns)
  "<table>\n<thead>\n".toList ++ row definitions "th" columns head ++ "</thead>\n".toList ++
    (if rows.isEmpty then [] else "<tbody>\n".toList ++ body ++ "</tbody>\n".toList) ++
    "</table>\n".toList

/-- Whether a block begins with a tag that is set apart from the text of a tight item before it.
Code is not. -/
def isSetApart : Block → Bool
  | .code .. => false
  | _ => true

/-- Whether a block is the text of a tight item, which has no tags of its own. -/
def isBare (tight : Bool) : Block → Bool
  | .paragraph _ => tight
  | _ => false

mutual

/-- Blocks as hypertext. `bare` says that the text of a tight item stands before them. -/
def blocks (definitions : Definitions) (tight bare : Bool) : List Block → List Char
  | [] => []
  | block :: rest =>
    let apart := if bare && isSetApart block && !isBare tight block then ['\n'] else []
    let own := match block with
      | .paragraph cs =>
        if tight then text definitions cs
        else "<p>".toList ++ text definitions cs ++ "</p>\n".toList
      | .heading level cs =>
        let name := 'h' :: Nat.toDigits 10 level
        '<' :: name ++ '>' :: text definitions cs ++ '<' :: '/' :: name ++ ">\n".toList
      | .rule => "<hr>\n".toList
      | .code fence cs => code fence cs
      | .quote inner =>
        "<blockquote>".toList ++ (if inner.isEmpty then [] else ['\n']) ++
          blocks definitions false false inner ++ "</blockquote>\n".toList
      | .items start tight items =>
        let name := if start.isSome then "ol".toList else "ul".toList
        let number := match start with
          | some n => if n = 1 then [] else attr "start" (Nat.toDigits 10 n)
          | none => []
        '<' :: name ++ number ++ ">\n".toList ++ itemList definitions tight items ++
          '<' :: '/' :: name ++ ">\n".toList
      | .table columns head rows => table definitions columns head rows
    apart ++ own ++ blocks definitions tight (isBare tight block) rest

/-- The items of a list. -/
def itemList (definitions : Definitions) (tight : Bool) : List (List Block) → List Char
  | [] => []
  | inner :: rest =>
    let lineEnd := match inner with
      | [] => []
      | block :: _ => if isBare tight block then [] else ['\n']
    "<li>".toList ++ lineEnd ++ blocks definitions tight false inner ++ "</li>\n".toList ++
      itemList definitions tight rest

end

end Html

/-- The text of a document in marks. -/
def toHtml (cs : List Char) : List Char :=
  let document := Document.ofChars cs
  Html.blocks document.definitions false false document.blocks

end Localization.Markdown
