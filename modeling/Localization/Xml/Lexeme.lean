import Localization.Xml.Token

/-! What a document holds before its first element and after its last one, cut into lexemes. -/

namespace Localization.Xml

/-- The parts that the text outside of elements is made of. -/
inductive Lexeme where
  | blanks
  | comment
  | instruction
  | xmlDeclaration (text : List Char)
  /-- The start of an element, of which nothing is taken. Any character outside of ASCII counts as
  the start of a name here. -/
  | element
  | declaration (keyword : List Char)
  | close
  | conditional
  | name (n : List Char)
  | qualified (n : Name)
  | nmtoken
  /-- A name with a sign for how often it stands. -/
  | counted
  | keyword (n : List Char)
  | literal (value : List Char)
  | percent
  | parameter
  | comma
  | bar
  | openBracket
  | closeBracket
  | openParen
  | closeParen
  | closeMixed
  /-- A closing parenthesis with another sign for how often. -/
  | closeCounted
  deriving Repr

/-- A lexeme, the characters left where it begins, and those left after it. -/
structure Placed where
  lexeme : Lexeme
  left : Nat
  after : Nat
  deriving Repr

namespace Lexeme

/-- A literal up to its quote; something that may follow a literal must follow. -/
def scanLiteral (quote : Char) : List Char → Except TokenError (Scanned (List Char))
  | [] => .error .unfinished
  | c :: cs =>
    if c = quote then
      match cs with
      | [] => .ok ([], [])
      | d :: _ =>
        if isBlank d || d = '>' || d = '%' || d = '[' then .ok ([], cs) else .error (stopAt cs)
    else if !isLegal c then .error (stopAt (c :: cs))
    else (scanLiteral quote cs).map fun r => (c :: r.1, r.2)

/-- A percent sign by itself, or a reference to a parameter entity. -/
def scanPercent (cs : List Char) : Except TokenError (Scanned Lexeme) :=
  match cs with
  | [] => .error .unfinished
  | c :: _ =>
    if isBlank c || c = '%' then .ok (.percent, cs)
    else do
      let (_, rest) ← scanBase cs
      match rest with
      | ';' :: rest => .ok (.parameter, rest)
      | rest => .error (stopAt rest)

/-- A word after a number sign. -/
def scanKeyword (cs : List Char) : Except TokenError (Scanned Lexeme) := do
  let (key, rest) ← scanBase cs
  match rest with
  | [] => .ok (.keyword key, rest)
  | c :: _ =>
    if isBlank c || c = ')' || c = '>' || c = '%' || c = '|' then .ok (.keyword key, rest)
    else .error (stopAt rest)

/-- What follows `<!`, if it is neither a comment nor a conditional section. -/
def scanDeclaration (cs : List Char) : Except TokenError (Scanned Lexeme) :=
  let isKeyChar (c : Char) : Bool := c.isAlpha || c == '_'
  match cs with
  | [] => .error .unfinished
  | c :: _ =>
    if !isKeyChar c then .error (stopAt cs)
    else
      let (key, rest) := cs.span isKeyChar
      match rest with
      | [] => .error .unfinished
      | ['%'] => .error .unfinished
      | '%' :: d :: _ =>
        if isBlank d || d = '%' then .error (stopAt rest) else .ok (.declaration key, rest)
      | d :: _ => if isBlank d then .ok (.declaration key, rest) else .error (stopAt rest)

/-- A closing parenthesis with a sign for how often its group stands. -/
def scanCloseParen : List Char → Except TokenError (Scanned Lexeme)
  | [] => .ok (.closeParen, [])
  | '*' :: cs => .ok (.closeMixed, cs)
  | '?' :: cs => .ok (.closeCounted, cs)
  | '+' :: cs => .ok (.closeCounted, cs)
  | c :: cs =>
    if isBlank c || c = '>' || c = ',' || c = '|' || c = ')' then .ok (.closeParen, c :: cs)
    else .error (stopAt (c :: cs))

/-- Whether a name may end before a character. -/
def endsName (c : Char) : Bool :=
  isBlank c || c == '>' || c == ')' || c == ',' || c == '|' || c == '[' || c == '%'

/-- A name or a name token, the characters of which are given without what follows. -/
def nameLexeme (written : List Char) : Lexeme :=
  let (first, rest) := written.span (· ≠ ':')
  if !(first.head?.any isNameStart) then .nmtoken
  else
    match rest with
    | [] => .name first
    | _ :: base =>
      if base.head?.any isNameChar && !base.contains ':' then .qualified ⟨some first, base⟩
      else .nmtoken

/-- A name, told by what stands in it and behind it. -/
def scanNameLexeme (cs : List Char) : Except TokenError (Scanned Lexeme) :=
  let (written, rest) := cs.span fun c => isNameChar c || c == ':'
  let lexeme := nameLexeme written
  let (first, tail) := written.span (· ≠ ':')
  let isName := match lexeme with
    | .nmtoken => false
    | _ => true
  match rest with
  | [] =>
    if tail = [':'] && first.head?.any isNameStart then .error .unfinished else .ok (lexeme, rest)
  | c :: more =>
    if endsName c then .ok (lexeme, rest)
    else if (c = '+' || c = '*' || c = '?') && isName then .ok (.counted, more)
    else .error (stopAt rest)

/-- The next lexeme of characters, of which there is one at least. -/
def scan : List Char → Except TokenError (Scanned Lexeme)
  | [] => .error .unfinished
  | '<' :: '!' :: '-' :: '-' :: cs => (scanComment cs).map fun r => (.comment, r.2)
  | '<' :: '!' :: '-' :: cs => .error (stopAt cs)
  | '<' :: '!' :: '[' :: cs => .ok (.conditional, cs)
  | '<' :: '!' :: cs => scanDeclaration cs
  | '<' :: '?' :: cs =>
    (scanInstruction cs).map fun r =>
      (if r.1 then .xmlDeclaration ((cs.drop 3).take (cs.length - r.2.length - 5))
        else .instruction, r.2)
  | '<' :: c :: cs =>
    if isNameStart c || 0x80 ≤ c.toNat then .ok (.element, '<' :: c :: cs)
    else .error (stopAt (c :: cs))
  | '<' :: [] => .error .unfinished
  | '"' :: cs => (scanLiteral '"' cs).map fun r => (.literal r.1, r.2)
  | '\x27' :: cs => (scanLiteral '\x27' cs).map fun r => (.literal r.1, r.2)
  | '%' :: cs => scanPercent cs
  | '#' :: cs => scanKeyword cs
  | ',' :: cs => .ok (.comma, cs)
  | '|' :: cs => .ok (.bar, cs)
  | '[' :: cs => .ok (.openBracket, cs)
  | ']' :: ']' :: '>' :: cs => .ok (.conditional, cs)
  | [']', ']'] => .error .unfinished
  | ']' :: cs => .ok (.closeBracket, cs)
  | '(' :: cs => .ok (.openParen, cs)
  | ')' :: cs => scanCloseParen cs
  | '>' :: cs => .ok (.close, cs)
  | c :: cs =>
    if isBlank c then .ok (.blanks, skipBlanks cs)
    else if isNameChar c || c = ':' then scanNameLexeme (c :: cs)
    else .error (stopAt (c :: cs))

end Lexeme

/-- How a sequence of lexemes ends: before an element, at the end of the text, or at a fault. -/
inductive LexemesEnd where
  | element (rest : List Char)
  | endOfText
  | fault (f : Fault)
  deriving Repr

/-- The lexemes of a text up to an element, a fault or its end. -/
def lexemes : (fuel : Nat) → List Char → List Placed × LexemesEnd
  | 0, _ => ([], .endOfText)
  | fuel + 1, cs =>
    if cs.isEmpty then ([], .endOfText)
    else
      match Lexeme.scan cs with
      | .error e => ([], .fault (e.fault cs.length))
      | .ok (.element, rest) => ([⟨.element, cs.length, rest.length⟩], .element rest)
      | .ok (lexeme, rest) =>
        let (more, last) := lexemes fuel rest
        (⟨lexeme, cs.length, rest.length⟩ :: more, last)

end Localization.Xml
