import Localization.Markup.Node
import Localization.Text.Replace

/-! Hypertext as markdown. Blocks are set apart by empty lines, and spaces beside them are dropped.
Nothing in the text is escaped. -/

namespace Localization.Markdown

open Markup (Node Attribute)

namespace OfHtml

/-- The level of a heading by the name of its element. -/
def headingLevel? : Text → Option Nat
  | .char 'h' :: t =>
    let digits := t.takeWhile (CodePoint.isOf Char.isDigit)
    if digits.isEmpty then none else some (Markup.Token.numberOf 10 digits)
  | _ => none

/-- The elements that are blocks. -/
def blockNames : List String :=
  ["p", "blockquote", "article", "div", "section", "ol", "ul", "li", "dl", "dt", "dd", "table",
   "thead", "tbody", "tfoot", "tr", "td", "th"]

/-- Whether spaces at the ends of an element do not count. -/
def trimsInside (name : Text) : Bool :=
  (headingLevel? name).isSome || Node.isOneOf blockNames name

/-- Whether spaces beside a node do not count. -/
def trimsBeside (n : Node) : Bool :=
  n.name?.any fun name => trimsInside name || name == Text.ofString "pre"

/-- An element around others, with the nodes before it, the nearest first. -/
structure Around where
  name : Text
  before : List Node
  children : List Node
  attributes : List Attribute

/-- The elements around a node, the innermost first. -/
structure Place where
  around : List Around := []
  isInline : Bool := false
  isPlain : Bool := false

namespace Place

/-- Whether an element of this name is around. -/
def isIn (name : String) (p : Place) : Bool := p.around.any fun a => a.name == Text.ofString name

/-- The place of what stands in an element. -/
def enter (a : Around) (p : Place) : Place :=
  { around := a :: p.around
    isInline := p.isInline || (headingLevel? a.name).isSome || Node.isOneOf ["td", "th"] a.name
    isPlain := p.isPlain || Node.isOneOf ["pre", "code", "kbd", "samp"] a.name }

/-- Whether spaces at the ends of what is around do not count. -/
def trims (p : Place) : Bool := p.around.head?.any fun a => trimsInside a.name

end Place

/-- Whether a code point is a space, a tab or part of a line end. -/
def isNarrow : CodePoint → Bool := CodePoint.isOf [' ', '\t', '\r', '\n'].contains

/-- Text without what `kind` holds for at its ends. -/
def trimOf (kind : CodePoint → Bool) (t : Text) : Text :=
  ((t.dropWhile kind).reverse.dropWhile kind).reverse

/-- Text without spaces, tabs and line ends at its ends. -/
def trim (t : Text) : Text := trimOf isNarrow t

/-- Text without blanks at its ends. -/
def trimBlank (t : Text) : Text := trimOf CodePoint.isBlank t

/-- Text without blanks at its end. -/
def trimEnd (t : Text) : Text := (t.reverse.dropWhile CodePoint.isBlank).reverse

/-- Every run of blanks as one character: a line end if `lines` and there is one in it, or else a
space. -/
def squeeze (lines : Bool) (t : Text) : Text :=
  let rec go (seen : Option Bool) : Text → Text
    | [] => close seen []
    | p :: t =>
      if isNarrow p then go (some (seen.getD false || p.isChar '\n' || p.isChar '\r')) t
      else close seen (p :: go none t)
  go none t
where
  close (seen : Option Bool) (rest : Text) : Text :=
    match seen with
    | none => rest
    | some ended => .char (if lines && ended then '\n' else ' ') :: rest

/-- Whether a text at a place is dropped: it is blank and stands beside a block or at the end of
one. -/
def isDropped (p : Place) (before after : Option Node) (t : Text) : Bool :=
  t.all CodePoint.isBlank && (p.trims && (before.isNone || after.isNone) ||
    before.any trimsBeside || after.any trimsBeside)

/-- A text at a place, between two nodes. -/
def text (p : Place) (before after : Option Node) (t : Text) : Text :=
  let t := if p.isIn "pre" then t else squeeze true t
  let t := if before.any trimsBeside || p.trims && before.isNone then t.dropWhile isNarrow else t
  if after.any trimsBeside || p.trims && after.isNone then trimEnd t else t

/-- The texts of children one after another. Where the line ends of two of them meet, the longer run
of them counts, and at most two. `ended` is the run at the end so far. -/
def joined (ended : Text) : List Text → Text
  | [] => ended
  | t :: rest =>
    let lead := t.takeWhile (CodePoint.isChar '\n')
    let body := t.drop lead.length
    let trail := body.reverse.takeWhile (CodePoint.isChar '\n')
    let gap := if ended.isEmpty || lead.isEmpty then ended ++ lead
      else List.replicate (min 2 (max ended.length lead.length)) (.char '\n')
    gap ++ body.take (body.length - trail.length) ++ joined trail rest

/-- A text without blanks at its ends, and a space before and after it if there was one. -/
def chomp (t : Text) : Text × Text × Text :=
  let space (p : Option CodePoint) : Text := if p = some (.char ' ') then " " else []
  (space t.head?, trimBlank t, space t.getLast?)

/-- A text between marks. -/
def marked (p : Place) (mark : String) (t : Text) : Text :=
  let (before, body, after) := chomp t
  if p.isPlain then t
  else if body.isEmpty then []
  else before ++ Text.ofString mark ++ body ++ Text.ofString mark ++ after

/-- Code between more grave accents than it holds in a row. -/
def code (p : Place) (t : Text) : Text :=
  let (before, body, after) := chomp t
  if p.isPlain then t
  else if body.isEmpty then []
  else
    let longest := (body.foldl (fun (run, most) q =>
      if q.isChar '\x60' then (run + 1, max most (run + 1)) else (0, most)) (0, 0)).2
    let mark : Text := List.replicate (longest + 1) (.char '\x60')
    let gap : Text := if longest = 0 then [] else " "
    before ++ mark ++ gap ++ body ++ gap ++ mark ++ after

/-- Lines with something before those which are not empty, and something in place of those which
are. -/
def indent (before empty t : Text) : Text :=
  Text.join "\n" ((splitAt "\n" t).map fun l => if l.isEmpty then empty else before ++ l)

/-- A block set apart by empty lines, if there is something in it. -/
def apart (t : Text) : Text := if t.isEmpty then [] else Text.ofString "\n\n" ++ t ++ "\n\n"

/-- A text with a space on either side. -/
def spaced (t : Text) : Text := Text.ofString " " ++ t ++ " "

/-- The title of an element in quotes. -/
def title (attributes : List Attribute) : Text :=
  match (Node.attribute? "title" attributes).getD [] with
  | [] => []
  | t =>
    Text.ofString " \"" ++ t.flatMap (fun p => if p.isChar '"' then Text.ofString "\\\"" else [p]) ++
      "\""

/-- A link. One whose text is its address is written by the address alone. -/
def link (p : Place) (attributes : List Attribute) (t : Text) : Text :=
  let (before, body, after) := chomp t
  let hasTitle := !((Node.attribute? "title" attributes).getD []).isEmpty
  if p.isPlain then t
  else if body.isEmpty then []
  else match Node.attribute? "href" attributes with
    | none => body
    | some [] => body
    | some href =>
      if replaceAll (Text.ofString "\\_") "_" body = href && !hasTitle then
        Text.ofString "<" ++ href ++ ">"
      else
        before ++ Text.ofString "[" ++ body ++ Text.ofString "](" ++ href ++ title attributes ++
          Text.ofString ")" ++ after

/-- An image: what stands for it among the text of a line, and else a reference to it. -/
def image (p : Place) (attributes : List Attribute) : Text :=
  let get (name : String) : Text := (Node.attribute? name attributes).getD []
  if p.isInline then get "alt"
  else
    Text.ofString "![" ++ get "alt" ++ Text.ofString "](" ++ get "src" ++ title attributes ++ ")"

/-- A film: its text with references to its first source and to its poster, if it has them. -/
def video (p : Place) (attributes : List Attribute) (children : List Node) (t : Text) : Text :=
  let get (attributes : List Attribute) (name : String) : Text :=
    (Node.attribute? name attributes).getD []
  let inner := (Node.foundAll ["source"] children).find? fun e =>
    (Node.attribute? "src" e.2).isSome
  let source := get attributes "src"
  let source := if source.isEmpty then (inner.map fun e => get e.2 "src").getD [] else source
  let poster := get attributes "poster"
  let between := Text.ofString "]("
  if p.isInline then t
  else match source.isEmpty, poster.isEmpty with
    | false, false =>
      Text.ofString "[![" ++ t ++ between ++ poster ++ Text.ofString ")](" ++ source ++ ")"
    | false, true => Text.ofString "[" ++ t ++ between ++ source ++ ")"
    | true, false => Text.ofString "![" ++ t ++ between ++ poster ++ ")"
    | true, true => t

/-- A heading. There are six levels. -/
def heading (p : Place) (level : Nat) (t : Text) : Text :=
  if p.isInline then t
  else
    let mark : Text := List.replicate (max 1 (min 6 level)) (.char '#')
    Text.ofString "\n\n" ++ mark ++ Text.ofString " " ++ squeeze false (trimBlank t) ++ "\n\n"

/-- Whether a node is one that counts between blocks. -/
def hasContent : Node → Bool
  | .element .. => true
  | .text t => !t.all CodePoint.isBlank
  | .remark => false

/-- A list. If something other than a list follows, an empty line goes between. -/
def list (p : Place) (after : List Node) (t : Text) : Text :=
  if p.isIn "li" then Text.ofString "\n" ++ trimEnd t
  else
    let followed := match after.find? hasContent with
      | some n => !n.hasName ["ul", "ol"]
      | none => false
    Text.ofString "\n\n" ++ t ++ if followed then Text.ofString "\n" else []

/-- The number that digits write, if they are nothing else. -/
def whole? (t : Text) : Option Nat :=
  if !t.isEmpty && t.all (CodePoint.isOf Char.isDigit) then some (Markup.Token.numberOf 10 t)
  else none

/-- The mark of an item: its number in a numbered list, and else a sign for the depth of the
list. -/
def itemMark (p : Place) (before : List Node) : Text :=
  match p.around.head? with
  | some a =>
    if a.name = Text.ofString "ol" then
      let start := ((Node.attribute? "start" a.attributes).bind whole?).getD 1
      .ofChars (Nat.toDigits 10 (start + (before.filter (Node.hasName ["li"])).length) ++ ['.'])
    else
      match (p.around.filter fun a => a.name == Text.ofString "ul").length % 3 with
      | 1 => "*"
      | 2 => "+"
      | _ => "-"
  | none => "-"

/-- An item of a list, with its lines below each other. -/
def item (p : Place) (before : List Node) (t : Text) : Text :=
  let body := trimBlank t
  if body.isEmpty then "\n"
  else
    let mark := itemMark p before ++ " "
    mark ++ (indent (List.replicate mark.length (.char ' ')) [] body).drop mark.length ++ "\n"

/-- A quotation, with a mark before each of its lines. -/
def quote (p : Place) (t : Text) : Text :=
  let body := trim t
  if p.isInline then spaced body
  else if body.isEmpty then "\n"
  else Text.ofString "\n" ++ indent "> " ">" body ++ "\n\n"

/-- What is said of a term. -/
def definition (p : Place) (t : Text) : Text :=
  let body := trimBlank t
  if p.isInline then spaced body
  else if body.isEmpty then "\n"
  else Text.ofString ":" ++ (indent "    " [] body).drop 1 ++ "\n"

/-- A term of which something is said. -/
def term (p : Place) (t : Text) : Text :=
  let body := squeeze false (trimBlank t)
  if p.isInline then spaced body
  else if body.isEmpty then "\n"
  else Text.ofString "\n\n" ++ body ++ "\n"

/-- Code of several lines. Empty lines at its ends are dropped. -/
def fenced (t : Text) : Text :=
  let isGap := CodePoint.isOf [' ', '\n'].contains
  let lead := t.takeWhile isGap
  let kept := (lead.reverse.takeWhile (!·.isChar '\n')).length
  let body := if lead.contains (.char '\n') then t.drop (lead.length - kept) else t
  let body := (body.reverse.dropWhile isGap).reverse
  if t.isEmpty then []
  else Text.ofString "\n\n\x60\x60\x60\n" ++ body ++ "\n\x60\x60\x60\n\n"

/-- How many columns a cell takes up. -/
def columns (attributes : List Attribute) : Nat :=
  ((Node.attribute? "colspan" attributes).bind whole?).elim 1 fun n => max 1 (min 1000 n)

/-- A cell of a table in one line. -/
def cell (attributes : List Attribute) (t : Text) : Text :=
  Text.ofString " " ++ (trimBlank t).map (fun p => if p.isChar '\n' then .char ' ' else p) ++
    (List.replicate (columns attributes) (Text.ofString " |")).flatten

/-- A line of a table that has the same text in all columns. -/
def rowOf (columns : Nat) (t : Text) : Text :=
  Text.ofString "| " ++ Text.join " | " (List.replicate columns t) ++ " |\n"

/-- A row of a table. The first one has a line below it, or an empty head above it if it is no
head. -/
def row (p : Place) (before children : List Node) (t : Text) : Text :=
  let cells := Node.foundAll ["td", "th"] children
  let count := cells.foldl (fun n e => n + columns e.2) 0
  let isFirst := !before.any fun n => n.name?.isSome
  let parent := p.around.head?
  let isIn (name : String) : Bool := parent.any fun a => a.name == Text.ofString name
  let isHead := cells.all (fun e => e.1 == Text.ofString "th") ||
    isIn "thead" && parent.any fun a => (Node.foundAll ["tr"] a.children).length == 1
  let lacksHead := isFirst && (!isIn "tbody" ||
    (p.around.drop 1).head?.any fun a => (Node.foundAll ["thead"] a.children).isEmpty)
  let leads := isFirst && (isIn "table" ||
    isIn "tbody" && parent.any fun a => !a.before.any fun n => n.name?.isSome)
  let line := rowOf count "---"
  let own := Text.ofString "|" ++ t ++ "\n"
  if isHead && isFirst then own ++ line
  else if lacksHead || leads then rowOf count [] ++ line ++ own
  else own

/-- An element at a place, from the text of its children. -/
def element (p : Place) (self : Around) (after : List Node) (t : Text) : Text :=
  let attributes := self.attributes
  match self.name.toString?.getD "" with
  | "a" => link p attributes t
  | "b" | "strong" => marked p "**" t
  | "em" | "i" => marked p "*" t
  | "del" | "s" => marked p "~~" t
  | "sub" | "sup" => marked p "" t
  | "code" | "kbd" | "samp" => code p t
  | "blockquote" => quote p t
  | "br" => if p.isInline then " " else "  \n"
  | "div" | "article" | "section" | "dl" =>
    if p.isInline then spaced (trimBlank t) else apart (trimBlank t)
  | "p" => if p.isInline then spaced (trim t) else apart (trim t)
  | "dd" => definition p t
  | "dt" => term p t
  | "hr" => "\n\n---\n\n"
  | "img" => image p attributes
  | "video" => video p attributes self.children t
  | "ul" | "ol" | "list" => list p after t
  | "li" => item p self.before t
  | "pre" => fenced t
  | "q" => Text.ofString "\"" ++ t ++ "\""
  | "script" | "style" => []
  | "table" | "figcaption" => Text.ofString "\n\n" ++ trimBlank t ++ "\n\n"
  | "caption" => trimBlank t ++ "\n\n"
  | "td" | "th" => cell attributes t
  | "tr" => row p self.before self.children t
  | _ =>
    match headingLevel? self.name with
    | some level => heading p level t
    | none => t

/-- The texts of nodes at a place, of which those in `before` come first, the nearest one first. -/
def nodes (p : Place) (before : List Node) : List Node → List Text
  | [] => []
  | n :: after =>
    let own := match n with
      | .text t =>
        if isDropped p before.head? after.head? t then []
        else text p before.head? after.head? t
      | .remark => []
      | .element name attributes children =>
        let self : Around := { name, before, children, attributes }
        let inner := nodes (p.enter self) [] children
        let joins := !(p.isIn "pre" || name == Text.ofString "pre")
        element p self after
          (if joins then joined [] (inner.filter (!·.isEmpty)) else inner.flatten)
    own :: nodes p (n :: before) after

end OfHtml

/-- The markdown of hypertext. -/
def ofHypertext (html : Text) : Text :=
  let top := Node.ofText html
  let document : OfHtml.Around :=
    { name := "[document]", before := [], children := top, attributes := [] }
  let texts := OfHtml.nodes { around := [document] } [] top
  OfHtml.trimBlank (OfHtml.joined [] (texts.filter (!·.isEmpty)))

/-- The markdown of hypertext in which no surrogate stands and that refers to none. -/
def ofHtml (html : List Char) : List Char := (ofHypertext (.ofChars html)).toChars?.getD []

end Localization.Markdown
