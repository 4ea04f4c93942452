import Localization.Markdown.Address
import Localization.Markdown.Span

/-! Reading the text of a block. Every character is first measured: how many characters does the
part take that begins there? With that the end of a text in brackets is found, since brackets inside
other parts do not count. Then the text is divided into its parts from left to right. -/

namespace Localization.Markdown

/-- An address and a title that links refer to by a label. -/
structure Definition where
  label : Text
  href : List Char
  title : List Char

/-- The definitions of a document. The first one of a label counts. -/
abbrev Definitions := List Definition

namespace Inline

/-- Characters, each with the length of the part that begins there. -/
abbrev Measured := List (Char × Nat)

def charsOf (cs : Measured) : List Char := cs.map Prod.fst

/-- How many characters stand before the bracket that closes a text. `skip` characters belong to a
part already, `depth` brackets inside are open, and `n` characters are counted. A part that begins
with a bracket is a link, and none is allowed unless `links`. -/
def bracketed? (links : Bool) (skip depth n : Nat) : Measured → Option Nat
  | [] => none
  | (c, length) :: cs =>
    if 0 < skip then bracketed? links (skip - 1) depth (n + 1) cs
    else if c = ']' then if depth = 0 then some n else bracketed? links 0 (depth - 1) (n + 1) cs
    else if c = '[' then
      if length = 1 then bracketed? links 0 (depth + 1) (n + 1) cs
      else if links then bracketed? links (length - 1) depth (n + 1) cs
      else none
    else bracketed? links (length - 1) depth (n + 1) cs

/-- A link or an image after its opening bracket. -/
structure Link where
  text : Nat
  href : List Char
  title : List Char
  length : Nat

/-- A link by a label. The label follows in brackets of its own, unless these are empty or missing.
Then the text is the label. `cs` begins with the text, and what may be brackets of the label begins
after `skip` characters. -/
def byLabel? (definitions : Definitions) (cs : Measured) (text skip : Nat) : Option Link :=
  let (label, length) :=
    match cs.drop skip with
    | ('[', _) :: inner =>
      match bracketed? true 0 0 0 inner with
      | some n => (inner.take n, skip + n + 2)
      | none => ([], text + 1)
    | _ => ([], text + 1)
  let label := if label.isEmpty then cs.take text else label
  let key := labelKey (charsOf label)
  (definitions.find? fun d => d.label == key).map fun d =>
    { text, href := d.href, title := d.title, length }

/-- The link after an opening bracket. If what follows its text in parentheses is not as it should
be, the text may still be a label, and another label may begin one character later. -/
def link? (definitions : Definitions) (cs : Measured) : Option Link := do
  let text ← bracketed? false 0 0 0 cs
  match cs.drop (text + 1) with
  | ('(', _) :: inner =>
    match Address.target (charsOf inner) with
    | .closed href title rest => some { text, href, title, length := cs.length - rest.length }
    | .broken rest => byLabel? definitions cs text (cs.length - rest.length + 1)
    | .missing => none
  | _ => byLabel? definitions cs text (text + 1)

/-- The image after an opening bracket. Its text may hold links. -/
def image? (definitions : Definitions) (cs : Measured) : Option Link := do
  let text ← bracketed? true 0 0 0 cs
  match cs.drop (text + 1) with
  | ('(', _) :: inner =>
    match Address.target (charsOf inner) with
    | .closed href title rest => some { text, href, title, length := cs.length - rest.length }
    | _ => none
  | _ => byLabel? definitions cs text (text + 1)

/-- Where a run of exactly `n` grave accents begins. `run` of them stand before, and `place`
characters are counted. -/
def runOf? (n run place : Nat) : List Char → Option Nat
  | [] => if run = n then some (place - run) else none
  | c :: cs =>
    if c = '\x60' then runOf? n (run + 1) (place + 1) cs
    else if run = n then some (place - run)
    else runOf? n 0 (place + 1) cs

/-- The code between runs of equally many grave accents, at the start of characters, and its whole
length. -/
def code? (cs : List Char) : Option (List Char × Nat) :=
  let (accents, rest) := cs.span (· == '\x60')
  let n := accents.length
  (runOf? n 0 0 rest).map fun length => (rest.take length, n + length + n)

/-- Code as it is shown. Line ends become spaces, and one space at each end is dropped if something
else is there. -/
def shownCode (cs : List Char) : List Char :=
  let cs := cs.map fun c => if c = '\n' then ' ' else c
  if cs.head? = some ' ' && cs.getLast? = some ' ' && !(trimBlanks cs).isEmpty then
    (cs.drop 1).dropLast
  else cs

/-- Whether characters are an address with a scheme. -/
def isAddress (cs : List Char) : Bool :=
  let (scheme, rest) := cs.span fun c => c.isAlphanum || c == '+' || c == '.' || c == '-'
  let body := rest.drop 1
  scheme.head?.any Char.isAlpha && 2 ≤ scheme.length && scheme.length ≤ 32 &&
    rest.head? == some ':' &&
    (if body.getLast? = some '\n' then body.dropLast else body).all fun c =>
      0x20 < c.toNat && c != '<' && c != '>'

/-- Whether characters are a label of a host. -/
def isHostLabel (cs : List Char) : Bool :=
  cs.length ≤ 63 && cs.head?.any Char.isAlphanum && cs.getLast?.any Char.isAlphanum &&
    cs.all fun c => c.isAlphanum || c == '-'

/-- Whether characters are an address of electronic mail. -/
def isMail (cs : List Char) : Bool :=
  let cs := if cs.getLast? = some '\n' then cs.dropLast else cs
  let (name, rest) := cs.span fun c =>
    c.isAlphanum || ".!#$%&'*+/=?^_\x60\x7b|\x7d~-".toList.contains c
  match rest with
  | '@' :: host => !name.isEmpty && (splitAt ['.'] host).all isHostLabel
  | _ => false

/-- The address between angle brackets after the opening one, with its length and as it is written
into markup. -/
def automatic? (cs : List Char) : Option (List Char × List Char) :=
  let (address, rest) := cs.span fun c => c != '<' && c != '>'
  if rest.head? ≠ some '>' then none
  else if isAddress address then (Address.allowed? address).map fun href => (address, href)
  else if isMail address then
    (Address.allowed? ("mailto:".toList ++ address)).map fun href => (address, href)
  else none

/-- How many characters the part takes that begins with `c`. Signs of emphasis count one by one. -/
def measureOne (definitions : Definitions) (c : Char) (cs : Measured) : Nat :=
  let blanks (cs : Measured) : Nat := (cs.takeWhile fun e => isSpace e.1).length
  match c with
  | '\n' => 1 + blanks cs
  | '\\' => match cs with
    | [] => 1
    | ('\n', _) :: cs => 2 + blanks cs
    | _ :: _ => 2
  | '\x60' =>
    let cs := c :: charsOf cs
    match code? cs with
    | some (_, n) => n
    | none => (cs.takeWhile (· == '\x60')).length
  | '[' => match link? definitions cs with
    | some link => link.length + 1
    | none => 1
  | '!' => match cs with
    | ('[', _) :: cs => match image? definitions cs with
      | some image => image.length + 2
      | none => 1
    | _ => 1
  | '<' => match automatic? (charsOf cs) with
    | some (address, _) => address.length + 2
    | none => 1
  | '&' => match reference? (charsOf cs) with
    | some (_, n) => n + 1
    | none => 1
  | _ => 1

/-- The characters of a text, each with the length of the part that begins there. -/
def measure (definitions : Definitions) : List Char → Measured
  | [] => []
  | c :: cs =>
    let rest := measure definitions cs
    (c, measureOne definitions c rest) :: rest

/-- The signs of emphasis at the start of a text. `~` strikes out two by two, and an odd one of them
comes first. -/
def signs (before c : Char) (cs : Measured) : List Part :=
  let run := (cs.takeWhile fun e => e.1 == c).length + 1
  let after := ((cs.drop (run - 1)).head?.map Prod.fst).getD ' '
  let (opens, closes) := Delimiter.flanks before after (c != '_')
  let sign (length : Nat) : Part := .sign { sign := c, run := cs.length, length, opens, closes }
  if c = '~' then
    (if run % 2 = 1 then [.odd] else []) ++ List.replicate (run / 2) (sign 0)
  else List.replicate run (sign run)

/-- The span for the text that is waiting, the last character first. -/
def flush (waiting : List Char) : List Part :=
  if waiting.isEmpty then [] else [.span (.text waiting.reverse)]

/-- The end of a line. Two spaces before it make it a hard one. -/
def lineEnd (waiting : List Char) : List Part :=
  match waiting with
  | ' ' :: ' ' :: waiting => flush (waiting.dropWhile (· == ' ')) ++ [.span .hardBreak]
  | ' ' :: waiting => flush waiting ++ [.span .softBreak]
  | waiting => flush waiting ++ [.span .softBreak]

/-- The parts of a text, of which `skip` characters are read already. `before` is the character
before it, and `nested` reads the text of a link. -/
def parts (definitions : Definitions) (nested : Char → Measured → List Span) (skip : Nat)
    (before : Char) (waiting : List Char) : Measured → List Part
  | [] => flush waiting
  | (c, length) :: cs =>
    let next (skip : Nat) : List Part := parts definitions nested skip c [] cs
    let plain (_ : Unit) : List Part := parts definitions nested 0 c (c :: waiting) cs
    if 0 < skip then parts definitions nested (skip - 1) c waiting cs
    else match c with
    | '\n' => lineEnd waiting ++ next (length - 1)
    | '\\' => match cs with
      | [] => plain ()
      | ('\n', _) :: _ => flush waiting ++ .span .hardBreak :: next (length - 1)
      | (d, _) :: _ =>
        flush waiting ++ .span (.literal (if isAsciiPunctuation d then [d] else [c, d])) :: next 1
    | '\x60' => match code? (c :: charsOf cs) with
      | some (code, n) => flush waiting ++ .span (.code (shownCode code)) :: next (n - 1)
      | none => parts definitions nested (length - 1) c (List.replicate length c ++ waiting) cs
    | '[' => match link? definitions cs with
      | some link =>
        flush waiting ++
          .span (.link link.href link.title (nested c (cs.take link.text))) :: next link.length
      | none => plain ()
    | '!' => match cs with
      | ('[', _) :: inner => match image? definitions inner with
        | some image =>
          let text := measure definitions (charsOf (inner.take image.text))
          flush waiting ++
            .span (.image image.href image.title (Span.alternative (nested ' ' text))) ::
              next (image.length + 1)
        | none => plain ()
      | _ => plain ()
    | '<' => match automatic? (charsOf cs) with
      | some (address, href) =>
        flush waiting ++ .span (.link href [] [.text (Url.shown address)]) ::
          next (address.length + 1)
      | none => plain ()
    | '&' => match reference? (charsOf cs) with
      | some (found, n) => flush waiting ++ .span (.literal found) :: next n
      | none => plain ()
    | _ =>
      if c = '*' || c = '_' || c = '~' && cs.head?.any fun e => e.1 == '~' then
        flush waiting ++ signs before c cs ++ next ((cs.takeWhile fun e => e.1 == c).length)
      else plain ()

/-- The spans of a text in which links and images are at most `depth` deep. -/
def spansFrom (definitions : Definitions) : (depth : Nat) → Char → Measured → List Span
  | 0, _, _ => []
  | depth + 1, before, cs =>
    Part.spans (parts definitions (fun b cs => spansFrom definitions depth b cs) 0 before [] cs)

/-- The spans of the text of a block. -/
def spans (definitions : Definitions) (cs : List Char) : List Span :=
  spansFrom definitions (cs.length + 1) ' ' (measure definitions cs)

end Inline

end Localization.Markdown
