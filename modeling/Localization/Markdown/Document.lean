import Localization.Markdown.Definition
import Localization.Markdown.Table

/-! Division of a document into blocks. Each block begins at a line which shows its kind, and takes
as many lines as belong to it. Quotes and items of lists are divided in the same way, with the marks
at the start of their lines taken away. -/

namespace Localization.Markdown

/-- Where in the nesting of blocks a line is read. -/
structure Place where
  column : Nat := 0
  /-- The column at which the content around the innermost list begins. -/
  listColumn : Option Nat := none

namespace Line

/-- Whether a line is indented as code is. -/
def isCode (l : Line) (place : Place) : Bool := 4 ≤ l.indent - place.column

/-- Whether a line stands before the column of its place. -/
def isOutside (l : Line) (place : Place) : Bool := l.indent < place.column

/-- Three or more equal marks make a rule. -/
def isRule (l : Line) (place : Place) : Bool :=
  !l.isCode place && match l.content with
    | [] => false
    | c :: cs => (c == '*' || c == '-' || c == '_') && cs.all (fun d => d == c || isSpace d) &&
        3 ≤ (cs.filter (· == c)).length + 1

/-- The level of a heading and its text. Number signs at the end are no part of it. -/
def heading? (l : Line) (place : Place) : Option (Nat × List Char) :=
  let (signs, rest) := l.content.span (· == '#')
  if l.isCode place || signs.isEmpty || 6 < signs.length || !(rest.head?.all isSpace) then none
  else
    let rest := (rest.reverse.dropWhile isSpace).reverse
    let unsigned := (rest.reverse.dropWhile (· == '#')).reverse
    let text := if unsigned.getLast?.any isSpace then unsigned else rest
    some (signs.length, trimBlanks text)

/-- A line that begins code, with the mark and the length of its fence and with what follows it. -/
def fence? (l : Line) (place : Place) : Option (Char × Nat × List Char) :=
  match l.content with
  | [] => none
  | c :: _ =>
    let (fence, rest) := l.content.span (· == c)
    if l.isCode place || c != '~' && c != '\x60' || fence.length < 3 ||
        c == '\x60' && rest.contains c then none
    else some (c, fence.length, rest)

/-- Whether a line ends code that a fence of some length began. -/
def closesFence (l : Line) (place : Place) (c : Char) (length : Nat) : Bool :=
  let (fence, rest) := l.content.span (· == c)
  !l.isCode place && !fence.isEmpty && length ≤ fence.length && rest.all isSpace

def isQuote (l : Line) (place : Place) : Bool :=
  !l.isCode place && l.content.head? == some '>'

/-- The level of the heading that a line makes of the paragraph above it. -/
def underline? (l : Line) (place : Place) : Option Nat :=
  match l.content with
  | [] => none
  | c :: cs =>
    if l.isOutside place || c != '-' && c != '=' || !(cs.dropWhile (· == c)).all isSpace then none
    else some (if c = '=' then 1 else 2)

/-- A line as a quote leaves it, without the mark and one blank after it. -/
def unquoted (l : Line) : Line :=
  let start := l.indent.toNat + 1
  let body := l.content.drop 1
  let rest (blank : Bool) (body : List Char) (origin start : Nat) : Line :=
    let (shift, column) := blanks origin start 0 body
    { body, shift, indent := (column : Int) - start,
      origin := l.indent.toNat + 1 + (if blank then 1 else 0), ended := l.ended }
  match body with
  | ' ' :: body => rest true body l.origin (start + 1)
  | '\t' :: cs =>
    if (l.origin + start) % 4 = 3 then rest true cs l.origin (start + 1)
    else rest true body (l.origin + 1) start
  | body => rest false body l.origin start

end Line

/-- The mark of an item: the number before it, its sign, and how many characters write it. -/
structure ItemMark where
  number : Option Nat
  sign : Char
  length : Nat

/-- The mark of an item at the start of the content of a line. A blank or the end of the line
follows it, and a number has at most nine digits. -/
def ItemMark.ofLine? (l : Line) : Option ItemMark :=
  let blankAfter (cs : List Char) : Bool := cs.head?.all isSpace
  let (digits, rest) := l.content.span Char.isDigit
  match rest with
  | [] => none
  | c :: rest =>
    if !blankAfter rest then none
    else if digits.isEmpty then
      if c = '*' || c = '-' || c = '+' then some { number := none, sign := c, length := 1 }
      else none
    else if (c = '.' || c = ')') && digits.length ≤ 9 then
      some { number := some (numberOf 10 digits), sign := c, length := digits.length + 1 }
    else none

/-- The mark of the list that a line begins. In a paragraph, only an item with content begins a
list, and only one with the number one. -/
def ItemMark.begins? (l : Line) (place : Place) (inParagraph : Bool) : Option ItemMark :=
  let tooDeep := l.isOutside place && place.listColumn.any fun n => 4 ≤ l.indent - n
  if l.isCode place || tooDeep then none
  else (ItemMark.ofLine? l).filter fun m =>
    !(inParagraph && !l.isOutside place) ||
      m.number.all (· == 1) && !(l.content.drop m.length).all isSpace

/-- The head of the table that begins at a line: its alignments and its cells. -/
def tableHead? (place : Place) : List Line → Option (List Alignment × List (List Char))
  | l :: below :: _ =>
    if below.isOutside place || below.isCode place || l.isCode place || !l.content.contains '|' then
      none
    else (Table.alignments? below).bind fun columns =>
      let cells := Table.cells l
      if cells.isEmpty || cells.length ≠ columns.length then none else some (columns, cells)
  | _ => none

namespace Line

/-- The line begins a block that ends the item of a list before it. -/
def endsItem (l : Line) (place : Place) : Bool :=
  (l.fence? place).isSome || l.isQuote place || l.isRule place

/-- Whether a line ends a quote or a table. -/
def endsQuote (l : Line) (place : Place) : Bool :=
  l.endsItem place || (ItemMark.begins? l place false).isSome || (l.heading? place).isSome

/-- Whether the first one of lines ends a paragraph, or a definition if not `inParagraph`. -/
def endsText (place : Place) (inParagraph : Bool) (lines : List Line) : Bool :=
  lines.head?.any (fun l => l.endsItem place || (ItemMark.begins? l place inParagraph).isSome ||
    (l.heading? place).isSome) || (tableHead? place lines).isSome

/-- How many of the lines go on with the text before them: those which are not empty and begin
nothing else. -/
def continued (place : Place) (inParagraph : Bool) : List Line → Nat
  | [] => 0
  | l :: ls =>
    if l.isEmpty || !l.isCode place && 0 ≤ l.indent && endsText place inParagraph (l :: ls) then 0
    else continued place inParagraph ls + 1

/-- The level of a heading that a line below it makes, and how many of the lines stand before it. -/
def underlined? (place : Place) : List Line → Option (Nat × Nat)
  | [] => none
  | l :: ls =>
    let next (_ : Unit) := (underlined? place ls).map fun (level, n) => (level, n + 1)
    if l.isEmpty then none
    else if l.isCode place then next ()
    else match l.underline? place with
      | some level => some (level, 0)
      | none => if 0 ≤ l.indent && endsText place true (l :: ls) then none else next ()

/-- How many of the lines are indented code. Empty ones at the end are not. -/
def coded (place : Place) (lines : List Line) : Nat :=
  ((lines.takeWhile fun l => l.isEmpty || l.isCode place).reverse.dropWhile isEmpty).length

/-- How many of the lines stand inside a fence, and whether a line that ends it follows. -/
def fenced (place : Place) (c : Char) (length : Nat) : List Line → Nat × Bool
  | [] => (0, false)
  | l :: ls =>
    if !l.isEmpty && l.isOutside place || l.isEmpty && !l.ended then (0, false)
    else if l.closesFence place c length then (0, true)
    else
      let (n, closed) := fenced place c length ls
      (n + 1, closed)

/-- The rows of a table, where `added` cells were missing so far. -/
def rows (place : Place) (columns : Nat) (added : Int) : List Line → List (List (List Char))
  | [] => []
  | l :: ls =>
    if l.isOutside place || l.endsQuote place || (trimBlanks l.content).isEmpty ||
        l.isCode place then
      []
    else
      let cells := Table.cells l
      let added := added + columns - cells.length
      if Table.maxAdded < added then []
      else Table.fill columns cells :: rows place columns added ls

/-- The lines of a quote as it leaves them. After a line with text, the paragraph may go on without
the mark. -/
def quoted (place : Place) (afterEmpty : Bool) : List Line → List Line
  | [] => []
  | l :: ls =>
    if l.isEmpty then []
    else if l.content.head? = some '>' && !l.isOutside place then
      let inner := l.unquoted
      inner :: quoted place inner.isEmpty ls
    else if afterEmpty || l.endsQuote place then []
    else { l with indent := -1 } :: quoted place false ls

end Line

/-- What has been read: blocks, the lines after them, the definitions so far, and whether no empty
line stands before the last block. -/
structure Progress where
  blocks : List Block
  rest : List Line
  definitions : Definitions
  tight : Bool

/-- A reader of the blocks at one depth of nesting. -/
abbrev Reader := Place → Definitions → List Line → Progress

/-- At the greatest depth nothing is read. -/
def Reader.skip : Reader := fun place definitions lines =>
  let lines := lines.dropWhile Line.isEmpty
  let rest := if lines.head?.any (·.isOutside place) then lines else []
  { blocks := [], rest, definitions, tight := true }

structure ItemProgress where
  items : List (List Block)
  rest : List Line
  definitions : Definitions
  tight : Bool

/-- The first line of an item as its content, and the column of the content. After more than four
blanks, or none, it begins one column after the mark. -/
def itemLine (l : Line) (m : ItemMark) : Line × Nat :=
  let start := l.indent.toNat + m.length
  let after := l.content.drop m.length
  let (count, column) := Line.blanks l.origin start 0 after
  let width := if after.length ≤ count || 4 < column - start then 1 else column - start
  ({ l with shift := l.shift + m.length + count, indent := column }, start + width)

/-- Reads the items of a list, which all have the same sign. `spaced` says that the item before
ended with an empty line. -/
def readItems (inner : Reader) (place : Place) (m : ItemMark) (spaced : Bool)
    (definitions : Definitions) (lines : List Line) : ItemProgress :=
  match lines with
  | [] => { items := [], rest := [], definitions, tight := true }
  | l :: ls =>
    let (first, column) := itemLine l m
    let p : Progress :=
      if first.isEmpty && ls.head?.all Line.isEmpty then
        { blocks := [], rest := ls.drop 1, definitions, tight := true }
      else inner { column, listColumn := some place.column } definitions (first :: ls)
    let tight := p.tight && !spaced
    let used := lines.length - p.rest.length
    let spaced := 1 < used && (lines[used - 1]?.any Line.isEmpty)
    let stop : ItemProgress :=
      { items := [p.blocks], rest := p.rest, definitions := p.definitions, tight }
    if _h : p.rest.length < ls.length + 1 then
      match p.rest.head? with
      | none => stop
      | some next =>
        if next.isOutside place || next.isCode place || next.endsItem place then stop
        else match ItemMark.ofLine? next with
          | none => stop
          | some n =>
            if n.sign ≠ m.sign || n.number.isSome != m.number.isSome then stop
            else
              let q := readItems inner place n spaced p.definitions p.rest
              { q with items := p.blocks :: q.items, tight := tight && q.tight }
    else stop
  termination_by lines.length
  decreasing_by exact _h

/-- Reads the block at the first line. A definition makes none. -/
def readBlock (inQuote inItem : Reader) (place : Place) (definitions : Definitions)
    (l : Line) (ls : List Line) : Option Block × List Line × Definitions :=
  let lines := l :: ls
  let one (block : Block) (rest : List Line) : Option Block × List Line × Definitions :=
    (some block, rest, definitions)
  match tableHead? place lines with
  | some (columns, head) =>
    let rows := Line.rows place columns.length 0 (ls.drop 1)
    one (.table columns head rows) (ls.drop (1 + rows.length))
  | none =>
  if l.isCode place then
    let n := Line.coded place ls
    one (.code none (Line.textOf (4 + place.column) (l :: ls.take n) ++ ['\n'])) (ls.drop n)
  else
  match l.fence? place with
  | some (c, length, info) =>
    let (n, closed) := Line.fenced place c length ls
    let text := (ls.take n).flatMap fun m =>
      m.text l.indent.toNat ++ if m.ended then ['\n'] else []
    one (.code (some info) text) (ls.drop (if closed then n + 1 else n))
  | none =>
  if l.isQuote place then
    let first := l.unquoted
    let inner := first :: Line.quoted place first.isEmpty ls
    let p := inQuote {} definitions inner
    (some (.quote p.blocks), lines.drop (inner.length - p.rest.length), p.definitions)
  else if l.isRule place then one .rule ls
  else
  match ItemMark.begins? l place false with
  | some m =>
    let p := readItems inItem place m false definitions lines
    let start := m.number
    (some (.items start p.tight p.items), p.rest, p.definitions)
  | none =>
  let extent := Line.continued place false ls
  match Definition.read? (lines.take (extent + 1) |>.flatMap Line.whole) with
  | some (definition, rest) =>
    let after := (rest.filter (· == '\n')).length
    let all := (lines.take (extent + 1)).countP Line.ended
    let known := definitions.any fun d => d.label == definition.label
    (none, lines.drop (all - after + 1), if known then definitions else definitions ++ [definition])
  | none =>
  match l.heading? place with
  | some (level, text) => one (.heading level text) ls
  | none =>
  match Line.underlined? place ls with
  | some (level, n) =>
    one (.heading level (trimBlanks (Line.textOf place.column (l :: ls.take n)))) (ls.drop (n + 1))
  | none =>
    let n := Line.continued place true ls
    one (.paragraph (trimBlanks (Line.textOf place.column (l :: ls.take n)))) (ls.drop n)

/-- Reads the blocks at a place, one after another. `spaced` says that an empty line has been
met. -/
def readBlocks (inQuote inItem : Reader) (place : Place) (spaced tight : Bool)
    (definitions : Definitions) (lines : List Line) : Progress :=
  match _h : lines.dropWhile Line.isEmpty with
  | [] => { blocks := [], rest := [], definitions, tight }
  | l :: ls =>
    if l.isOutside place then { blocks := [], rest := l :: ls, definitions, tight }
    else
      let (block, rest, definitions) := readBlock inQuote inItem place definitions l ls
      let tight := !spaced
      let used := (l :: ls).length - rest.length
      let spaced := spaced || (l :: ls)[used - 1]?.any Line.isEmpty || rest.head?.any Line.isEmpty
      let rest := if rest.head?.any Line.isEmpty then rest.drop 1 else rest
      if _hlt : rest.length < (l :: ls).length then
        let p := readBlocks inQuote inItem place spaced tight definitions rest
        { p with blocks := block.toList ++ p.blocks }
      else { blocks := block.toList, rest, definitions, tight }
  termination_by lines.length
  decreasing_by
    have le := (List.dropWhile_sublist (l := lines) Line.isEmpty).length_le
    rw [_h] at le
    exact Nat.lt_of_lt_of_le _hlt le

/-- Reads blocks of which quotes and lists are at most `depth` deep. A list counts twice, since its
items count as well. -/
def reader : (depth : Nat) → Reader
  | 0, place, definitions, lines => Reader.skip place definitions lines
  | 1, place, definitions, lines =>
    readBlocks Reader.skip Reader.skip place false true definitions lines
  | depth + 2, place, definitions, lines =>
    readBlocks (fun p d ls => reader (depth + 1) p d ls) (fun p d ls => reader depth p d ls) place
      false true definitions lines

def maxDepth : Nat := 100

/-- A document: its blocks, and the definitions that its links refer to. -/
structure Document where
  blocks : List Block
  definitions : Definitions

/-- Characters with one line feed at every line end. -/
def unifyLines : List Char → List Char
  | '\r' :: '\n' :: cs => '\n' :: unifyLines cs
  | '\r' :: cs => '\n' :: unifyLines cs
  | c :: cs => (if c = '\x00' then '\ufffd' else c) :: unifyLines cs
  | [] => []

/-- The blocks and the definitions of a text. -/
def Document.ofChars (cs : List Char) : Document :=
  let p := reader maxDepth {} [] (Line.ofChars (unifyLines cs))
  { blocks := p.blocks, definitions := p.definitions }

end Localization.Markdown
