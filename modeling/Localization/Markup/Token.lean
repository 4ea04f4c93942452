import Localization.Markup.Entity
import Localization.Text.Blank

/-! Division of hypertext into tags, text and remarks. Anything can be divided: what is no tag or no
reference is text. -/

namespace Localization.Markup

/-- An attribute with its name in small letters. -/
abbrev Attribute := Text × Text

/-- A part of hypertext. -/
inductive Token where
  | text (t : Text)
  /-- A tag that opens an element, or one that opens and closes it at once. -/
  | opening (name : Text) (attributes : List Attribute) (closed : Bool)
  | closing (name : Text)
  /-- A comment or a declaration of the kind of document. -/
  | remark
  /-- Text of a marked section or of an instruction. It stays apart from the text around it. -/
  | inserted (t : Text)
  deriving Repr

namespace Token

/-- Text with its letters in small ones. -/
def lower (t : Text) : Text := t.map (CodePoint.mapChar Char.toLower)

/-- Whether a code point is a hexadecimal digit. -/
def isHex : CodePoint → Bool :=
  CodePoint.isOf fun c => c.isDigit || 'a' ≤ c && c ≤ 'f' || 'A' ≤ c && c ≤ 'F'

/-- The digits of a number at the start of a text, with its base, and what follows them. -/
def number (t : Text) : Text × Nat × Text :=
  match t with
  | .char 'x' :: t =>
    let (digits, rest) := t.span isHex
    (digits, 16, rest)
  | .char 'X' :: t =>
    let (digits, rest) := t.span isHex
    (digits, 16, rest)
  | t =>
    let (digits, rest) := t.span (CodePoint.isOf Char.isDigit)
    (digits, 10, rest)

/-- The value of a digit. -/
def digitValue (p : CodePoint) : Nat :=
  if p.isOf Char.isDigit then p.toNat - '0'.toNat else (p.toNat - 'A'.toNat) % 32 + 10

/-- The number that digits write. -/
def numberOf (base : Nat) (digits : Text) : Nat :=
  digits.foldl (fun n p => base * n + digitValue p) 0

/-- The characters that a name stands for. -/
def named? (name : Text) : Option Text :=
  name.toChars?.bind fun cs => (Entity.find? cs).map Text.ofChars

/-- The text of a named reference in the value of an attribute: that of the name, or else that of
the longest beginning of it that may stand without a semicolon. -/
def namedValue (name : Text) : Text :=
  let find? (name : Text) : Option Text :=
    if name.getLast? = some (.char ';') then named? name.dropLast
    else if name.toString?.any Entity.bareNames.contains then named? name
    else none
  match find? name with
  | some found => found
  | none =>
    let lengths := (List.range name.length).reverse.filter (2 ≤ ·)
    (lengths.findSome? fun n => (find? (name.take n)).map (· ++ name.drop n)).getD
      (.char '&' :: name)

/-- The text of a numbered reference in the value of an attribute. -/
def numberedValue (n : Nat) : Text :=
  if n = 0 then [.char '\ufffd']
  else if n = 0x0D then [.char '\r']
  else if 0x80 ≤ n && n ≤ 0x9F || 0x10FFFF < n || 0xD800 ≤ n && n ≤ 0xDFFF then
    [.char (Entity.ofNumber n)]
  else if Entity.isWritable n then [.char (Char.ofNat n)]
  else []

/-- The value of a reference after its ampersand in the value of an attribute, and its length. -/
def value? (t : Text) : Option (Text × Nat) :=
  match t with
  | .char '#' :: t =>
    let (digits, base, rest) := number t
    if digits.isEmpty then none
    else
      let length := t.length - rest.length + 1 + if rest.head? = some (.char ';') then 1 else 0
      some (numberedValue (numberOf base digits), length)
  | t =>
    let name := (t.takeWhile fun p => !("\t\n\x0c <&#;" : Text).contains p).take 32
    if name.isEmpty then none
    else
      let ends := (t.drop name.length).head? = some (.char ';')
      let name := if ends then name ++ [.char ';'] else name
      some (namedValue name, name.length)

/-- The value of an attribute with references resolved, after `skip` code points. -/
def valueFrom : (skip : Nat) → Text → Text
  | _, [] => []
  | n + 1, _ :: t => valueFrom n t
  | 0, p :: t =>
    if p.isChar '&' then
      match value? t with
      | some (found, n) => found ++ valueFrom n t
      | none => p :: valueFrom 0 t
    else p :: valueFrom 0 t

/-- Without leading blanks, and without leading slashes that do not end a tag. -/
def skipGap : Text → Text
  | [] => []
  | p :: t =>
    if p.isBlank || p.isChar '/' && t.head? ≠ some (.char '>') then skipGap t else p :: t

/-- What follows a quoted value, and the value. -/
def quoted? (quote : CodePoint) (t : Text) : Option (Text × Text) :=
  let value := t.takeWhile (· ≠ quote)
  if value.length = t.length then none else some (value, t.drop (value.length + 1))

/-- The value of an attribute after its name, and what follows it. A quote that is not closed begins
no value. -/
def attributeValue? (t : Text) : Option (Text × Text) :=
  match (t.dropWhile CodePoint.isBlank).span (CodePoint.isChar '=') with
  | ([], _) => none
  | (signs, after) =>
    let rest := after.dropWhile CodePoint.isBlank
    let bare (t : Text) : Text × Text := t.span fun p => !p.isChar '>' && !p.isBlank
    match rest with
    | p :: inner =>
      if p.isChar '"' || p.isChar '\x27' then
        match quoted? p inner with
        | some found => some found
        | none =>
          if rest.length < after.length then some ([], rest)
          else if 1 < signs.length then some (bare (.char '=' :: rest))
          else none
      else some (bare rest)
    | [] => some ([], [])

/-- The attributes at the start of a text, at most `fuel` of them, and what follows them. `before` is
the code point before; only after a blank, a slash or a quote can an attribute begin. -/
def attributes (before : CodePoint) : (fuel : Nat) → Text → List Attribute × Text
  | 0, t => ([], t)
  | _, [] => ([], [])
  | fuel + 1, p :: t =>
    let begins := before.isBlank || before.isOf ['/', '"', '\x27'].contains
    if !begins || p.isChar '/' || p.isChar '>' || p.isBlank then ([], p :: t)
    else
      let (more, after) := t.span fun q => !q.isOf ['/', '=', '>'].contains && !q.isBlank
      let (value, rest) := (attributeValue? after).getD ([], after)
      let next := skipGap rest
      let used := (p :: t).take ((p :: t).length - next.length)
      let (others, rest) := attributes (used.getLast?.getD p) fuel next
      ((lower (p :: more), valueFrom 0 value) :: others, rest)

/-- The name of a tag at the start of a text, and what follows it. -/
def tagName (t : Text) : Text × Text := t.span fun p => !("\t\n\r\x0c />\x00" : Text).contains p

/-- What begins with an angle bracket and a letter: a tag, or text, with what follows it. -/
def tag? (t : Text) : Option (Token × Text) :=
  let (name, after) := tagName t
  let next := skipGap after
  let space := CodePoint.char ' '
  let before := if next.length < after.length then space else name.getLast?.getD space
  let (found, rest) := attributes before next.length next
  match rest with
  | .char '>' :: rest => some (.opening (lower name) found false, rest)
  | .char '/' :: .char '>' :: rest => some (.opening (lower name) found true, rest)
  | .char '\x00' :: _ => some (.text (.char '<' :: name), rest)
  | _ => none

/-- Up to the first place where `ends` holds for what follows. It tells how long the end is. -/
def upTo? (ends : Text → Option Nat) : Text → Option (Text × Text)
  | [] => none
  | p :: t =>
    match ends (p :: t) with
    | some n => some ([], (p :: t).drop n)
    | none => (upTo? ends t).map fun (part, rest) => (p :: part, rest)

/-- The length of marks with blanks between and after them and a closing angle bracket. -/
def closeLength? (marks : List Char) (t : Text) : Option Nat :=
  match marks, t with
  | m :: marks, p :: rest =>
    if p.isChar m then
      let next := if marks.isEmpty then rest else
        if m = ']' then rest.dropWhile CodePoint.isBlank else rest
      (closeLength? marks next).map fun n => n + (t.length - next.length)
    else none
  | [], t =>
    let rest := t.dropWhile CodePoint.isBlank
    if rest.head? = some (.char '>') then some (t.length - rest.length + 1) else none
  | _ :: _, [] => none

/-- A marked section after its bracket, and what follows it. -/
def section? (t : Text) : Option (Token × Text) :=
  let (name, _) := t.span (CodePoint.isOf fun c => c.isAlphanum || c == '-' || c == '_' || c == '.')
  let isShort := ["if", "else", "endif"].any fun n => lower name == Text.ofString n
  let marks := if isShort then [']'] else [']', ']']
  (upTo? (closeLength? marks) t).map fun (body, rest) =>
    let isPlain := ("cdata[" : Text).isPrefixOf (lower body)
    (.inserted (if isPlain then body.drop 6 else body), rest)

/-- Whether a code point may be part of the name of a closing tag. -/
def isTagNameChar : CodePoint → Bool :=
  CodePoint.isOf fun c => c.isAlphanum || c == '-' || c == '.' || c == ':' || c == '_'

/-- The name of a closing tag without anything but blanks around it, and what follows the tag. -/
def plainClosing? (t : Text) : Option (Text × Text) :=
  let (name, rest) := (t.dropWhile CodePoint.isBlank).span isTagNameChar
  match rest.dropWhile CodePoint.isBlank with
  | .char '>' :: rest =>
    if name.head?.any (CodePoint.isOf Char.isAlpha) then some (lower name, rest) else none
  | _ => none

/-- What follows the next closing bracket. -/
def afterBracket? (t : Text) : Option Text :=
  let rest := t.dropWhile (!·.isChar '>')
  if rest.isEmpty then none else some (rest.drop 1)

/-- A closing tag after its slash. If no name follows, it is a remark, or nothing if it is empty. -/
def closing? (t : Text) : Option (List Token × Text) :=
  match plainClosing? t, afterBracket? t with
  | some (name, rest), _ => some ([.closing name], rest)
  | none, none => none
  | none, some rest =>
    match t with
    | .char '>' :: _ => some ([], rest)
    | p :: _ =>
      if p.isOf Char.isAlpha then some ([.closing (lower (tagName t).1)], rest)
      else some ([.remark], rest)
    | [] => none

/-- What begins with an angle bracket, and what follows it. It is none if its end is missing. -/
def bracket? (t : Text) : Option (List Token × Text) :=
  let one (r : Option (Token × Text)) : Option (List Token × Text) :=
    r.map fun (token, rest) => ([token], rest)
  match t with
  | .char '/' :: t => closing? t
  | .char '!' :: .char '-' :: .char '-' :: t =>
    (upTo? (closeLength? ['-', '-']) t).map fun (_, rest) => ([.remark], rest)
  | .char '!' :: .char '[' :: t => one (section? t)
  | .char '!' :: t => (afterBracket? t).map fun rest => ([.remark], rest)
  | .char '?' :: t =>
    (afterBracket? t).map fun rest => ([.inserted (t.takeWhile (!·.isChar '>'))], rest)
  | p :: _ => if p.isOf Char.isAlpha then one (tag? t) else some ([.text [.char '<']], t)
  | [] => none

/-- The text of a bracket whose end is missing: up to the next closing one, or else up to the next
opening one, or the bracket alone. -/
def unfinished (t : Text) : Text × Text :=
  let part := t.takeWhile (!·.isChar '>')
  if part.length < t.length then (.char '<' :: part ++ [.char '>'], t.drop (part.length + 1))
  else
    let part := t.takeWhile (!·.isChar '<')
    if part.length < t.length then (.char '<' :: part, t.drop part.length)
    else ([.char '<'], t)

/-- The text of a reference by name, after its ampersand, and what follows it. A name ends before a
code point that is no part of it, and a name that stands for nothing loses its semicolon. -/
def reference? (t : Text) : Option (Text × Text) :=
  let isLetter := CodePoint.isOf Char.isAlphanum
  let (run, rest) := t.span fun p => isLetter p || p.isChar '-' || p.isChar '.'
  let name := if rest.isEmpty then (run.reverse.dropWhile isLetter).reverse.dropLast else run
  if name.isEmpty then none
  else
    let after := t.drop name.length
    let after := if after.head? = some (.char ';') then after.drop 1 else after
    some ((named? name).getD (.char '&' :: name), after)

/-- The code point of a reference by number, after its number sign, and what follows it. A number may
be that of a surrogate. -/
def numbered? (t : Text) : Option (Text × Text) :=
  let (digits, base, rest) := number t
  match rest with
  | [] => none
  | p :: after =>
    if digits.isEmpty || isHex p then none
    else
      let n := numberOf base digits
      let found := if 0xD800 ≤ n && n < 0xE000 then CodePoint.ofNat n else .char (Entity.ofNumber n)
      some ([found], if p.isChar ';' then after else rest)

/-- The text of what begins with an ampersand, and what follows it. Where a reference does not end,
all that is left is text; with a number this happens only when `late`. -/
def ampersand (late : Bool) (t : Text) : Text × Text × Bool :=
  match t with
  | [] => ([.char '&'], [], late)
  | .char '#' :: inner =>
    match numbered? inner with
    | some (found, rest) => (found, rest, late)
    | none =>
      if late || !inner.contains (.char ';') then (.char '&' :: t, [], true)
      else ([.char '&', .char '#'], inner, true)
  | p :: inner =>
    if p.isOf Char.isAlpha then
      match reference? t with
      | some (found, rest) => (found, rest, late)
      | none => (if inner.isEmpty then t else .char '&' :: t, [], true)
    else ([.char '&'], t, late)

/-- The text of an element whose tags and references do not count, and what follows its closing
tag. -/
def raw? (name : Text) : Text → Option (Text × Text)
  | [] => none
  | p :: t =>
    match p, t with
    | .char '<', .char '/' :: inner =>
      match plainClosing? inner with
      | some (closed, rest) => if closed = name then some ([], rest) else
          (raw? name t).map fun (part, rest) => (p :: part, rest)
      | none => (raw? name t).map fun (part, rest) => (p :: part, rest)
    | _, _ => (raw? name t).map fun (part, rest) => (p :: part, rest)

/-- Whether the tags and references in elements of this name do not count. -/
def isRaw (name : Text) : Bool := name == Text.ofString "script" || name == Text.ofString "style"

/-- The tokens of hypertext, at most `fuel` of them. `late` says that something without an end has
been met. -/
def ofTextFrom (late : Bool) : (fuel : Nat) → Text → List Token
  | 0, _ => []
  | _, [] => []
  | fuel + 1, p :: t =>
    if p.isChar '<' then
      if t.isEmpty then [.text [.char '<']]
      else match bracket? t with
      | none =>
        let (part, rest) := unfinished t
        .text part :: ofTextFrom true fuel rest
      | some (tokens, rest) =>
        match tokens with
        | [.opening name _ false] =>
          if isRaw name then
            match raw? name rest with
            | some (part, rest) =>
              tokens ++ .text part :: .closing name :: ofTextFrom late fuel rest
            | none => tokens
          else tokens ++ ofTextFrom late fuel rest
        | tokens => tokens ++ ofTextFrom late fuel rest
    else if p.isChar '&' then
      let (part, rest, late) := ampersand late t
      .text part :: ofTextFrom late fuel rest
    else
      let part := t.takeWhile fun q => !q.isChar '<' && !q.isChar '&'
      .text (p :: part) :: ofTextFrom late fuel (t.drop part.length)

/-- The tokens of hypertext. -/
def ofText (t : Text) : List Token := ofTextFrom false (t.length + 1) t

end Token

end Localization.Markup
