import Localization.Xml.Fault
import Localization.Xml.Name

/-! The smallest parts of a document: names, references, tags, comments and instructions. A part is
read from the characters that are left, and what follows it is given back. -/

namespace Localization.Xml

/-- Why no token can be read: a character that cannot stand where it does, by the number of
characters from it on, or an end of the text inside a token. -/
inductive TokenError where
  | invalid (left : Nat)
  | unfinished
  deriving DecidableEq, Repr

/-- The fault of a token that begins where `start` characters are left. -/
def TokenError.fault (start : Nat) : TokenError → Fault
  | .invalid left => ⟨.invalidToken, left⟩
  | .unfinished => ⟨.unclosedToken, start⟩

/-- What was scanned, and the characters after it. -/
abbrev Scanned (α : Type) := α × List Char

/-- The error at the first of the characters, or at the end of the text. -/
def stopAt : List Char → TokenError
  | [] => .unfinished
  | c :: cs => .invalid (c :: cs).length

def skipBlanks (cs : List Char) : List Char := cs.dropWhile isBlank

/-- A name without a colon. -/
def scanBase : List Char → Except TokenError (Scanned (List Char))
  | c :: cs => if isNameStart c then .ok ((c :: cs).span isNameChar) else .error (stopAt (c :: cs))
  | [] => .error .unfinished

/-- A name with at most one colon in it. -/
def scanName (cs : List Char) : Except TokenError (Scanned Name) := do
  let (first, rest) ← scanBase cs
  match rest with
  | ':' :: rest =>
    let (base, rest) ← scanBase rest
    match rest with
    | ':' :: _ => .error (stopAt rest)
    | _ => .ok (⟨some first, base⟩, rest)
  | _ => .ok (⟨none, first⟩, rest)

/-! ### References -/

/-- What stands between an ampersand and a semicolon. -/
inductive Reference where
  | entity (name : List Char)
  | number (n : Nat)
  deriving DecidableEq, Repr

def hexValue? (c : Char) : Option Nat :=
  if c.isDigit then some (c.toNat - '0'.toNat)
  else if 'a' ≤ c && c ≤ 'f' then some (c.toNat - 'a'.toNat + 10)
  else if 'A' ≤ c && c ≤ 'F' then some (c.toNat - 'A'.toNat + 10)
  else none

def isHexDigit (c : Char) : Bool := (hexValue? c).isSome

/-- Digits of one kind, with a semicolon after them. -/
def scanNumber (isDigit : Char → Bool) (base : Nat) (cs : List Char) :
    Except TokenError (Scanned Reference) :=
  let (digits, rest) := cs.span isDigit
  if digits.isEmpty then .error (stopAt cs)
  else
    match rest with
    | ';' :: rest =>
      .ok (.number (digits.foldl (fun n c => base * n + (hexValue? c).getD 0) 0), rest)
    | rest => .error (stopAt rest)

/-- A reference, after its ampersand. -/
def scanReference : List Char → Except TokenError (Scanned Reference)
  | '#' :: 'x' :: cs => scanNumber isHexDigit 16 cs
  | '#' :: cs => scanNumber Char.isDigit 10 cs
  | cs => do
    let (name, rest) ← scanBase cs
    match rest with
    | ';' :: rest => .ok (.entity name, rest)
    | rest => .error (stopAt rest)

/-- The character of an entity that every document has. -/
def standardEntity? (name : List Char) : Option Char :=
  match String.ofList name with
  | "lt" => some '<'
  | "gt" => some '>'
  | "amp" => some '&'
  | "quot" => some '"'
  | "apos" => some '\x27'
  | _ => none

/-! ### Comments, instructions and sections -/

def scanComment : List Char → Except TokenError (Scanned Unit)
  | [] => .error .unfinished
  | '-' :: '-' :: '>' :: cs => .ok ((), cs)
  | '-' :: '-' :: cs => .error (stopAt cs)
  | c :: cs => if isLegal c then scanComment cs else .error (stopAt (c :: cs))

def scanInstructionEnd : List Char → Except TokenError (Scanned Unit)
  | [] => .error .unfinished
  | '?' :: '>' :: cs => .ok ((), cs)
  | c :: cs => if isLegal c then scanInstructionEnd cs else .error (stopAt (c :: cs))

/-- The target of an instruction, after its mark, and whether it is the target of a declaration,
which no instruction may have in other case. -/
def scanInstruction (cs : List Char) : Except TokenError (Scanned Bool) := do
  let (target, rest) ← scanBase cs
  let isDeclaration := target = "xml".toList
  if !isDeclaration && target.map Char.toLower = "xml".toList then
    .error (stopAt rest)
  else
    match rest with
    | '?' :: '>' :: rest => .ok (isDeclaration, rest)
    | '?' :: rest => .error (stopAt rest)
    | c :: more =>
      if isBlank c then (scanInstructionEnd more).map fun r => (isDeclaration, r.2)
      else .error (stopAt rest)
    | [] => .error .unfinished

/-- The opening of a section of plain characters, after `<![`. -/
def scanSectionOpen (cs : List Char) : Except TokenError (Scanned Unit) :=
  let mark := "CDATA[".toList
  if cs.length < mark.length then .error .unfinished
  else
    let matched := ((cs.zip mark).takeWhile fun p => p.1 == p.2).length
    if matched = mark.length then .ok ((), cs.drop matched) else .error (stopAt (cs.drop matched))

/-! ### Tags -/

/-- An attribute as it is written, with the characters left at its name and after its value. -/
structure WrittenAttribute where
  name : Name
  left : Nat
  value : List Char
  leftAfter : Nat
  deriving Repr

/-- A value of an attribute up to its quote. -/
def scanValue (quote : Char) : List Char → Except TokenError (Scanned (List Char))
  | [] => .error .unfinished
  | c :: cs =>
    if c = quote then .ok ([], cs)
    else if c = '<' || !isLegal c then .error (stopAt (c :: cs))
    else if c = '&' then
      match scanReference cs with
      | .ok _ => (scanValue quote cs).map fun r => (c :: r.1, r.2)
      | .error e => .error e
    else (scanValue quote cs).map fun r => (c :: r.1, r.2)

/-- An attribute with its value in quotes. -/
def scanAttribute (cs : List Char) : Except TokenError (Scanned WrittenAttribute) := do
  let (name, rest) ← scanName cs
  match skipBlanks rest with
  | '=' :: rest =>
    match skipBlanks rest with
    | quote :: rest =>
      if quote = '"' || quote = '\x27' then
        let (value, rest) ← scanValue quote rest
        .ok (⟨name, cs.length, value, rest.length + 1⟩, rest)
      else .error (stopAt (quote :: rest))
    | [] => .error .unfinished
  | rest => .error (stopAt rest)

/-- A tag that opens an element, or that is all of it. -/
structure OpeningTag where
  name : Name
  attributes : List WrittenAttribute
  /-- The element has no content and no other tag. -/
  isEmpty : Bool
  deriving Repr

/-- The end of an opening tag: whether it closes the element as well. -/
def scanTagEnd : List Char → Except TokenError (Scanned Bool)
  | '>' :: cs => .ok (false, cs)
  | '/' :: '>' :: cs => .ok (true, cs)
  | '/' :: cs => .error (stopAt cs)
  | cs => .error (stopAt cs)

/-- Attributes, each after blanks, up to the end of an opening tag. -/
def scanAttributes :
    (fuel : Nat) → List Char → Except TokenError (Scanned (List WrittenAttribute × Bool))
  | 0, _ => .error .unfinished
  | fuel + 1, cs =>
    match cs with
    | c :: _ =>
      if isBlank c then
        match skipBlanks cs with
        | d :: rest =>
          if isNameStart d then do
            let (a, rest) ← scanAttribute (d :: rest)
            let ((more, isEmpty), rest) ← scanAttributes fuel rest
            .ok ((a :: more, isEmpty), rest)
          else (scanTagEnd (d :: rest)).map fun r => (([], r.1), r.2)
        | [] => .error .unfinished
      else (scanTagEnd cs).map fun r => (([], r.1), r.2)
    | [] => .error .unfinished

/-- A tag, after its angle bracket. -/
def scanOpeningTag (cs : List Char) : Except TokenError (Scanned OpeningTag) := do
  let (name, rest) ← scanName cs
  let ((attributes, isEmpty), rest) ← scanAttributes (rest.length + 1) rest
  .ok (⟨name, attributes, isEmpty⟩, rest)

/-- The name of a closing tag, after `</`, as it is written. -/
def scanClosingTag (cs : List Char) : Except TokenError (Scanned (List Char)) :=
  match cs with
  | c :: _ =>
    if isNameStart c then
      let (name, rest) := cs.span fun c => isNameChar c || c == ':'
      match skipBlanks rest with
      | '>' :: rest => .ok (name, rest)
      | rest => .error (stopAt rest)
    else .error (stopAt cs)
  | [] => .error .unfinished

end Localization.Xml
