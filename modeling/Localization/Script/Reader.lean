import Localization.Script.Tree

/-! Reading a script from left to right: a cursor, the gaps between tokens, and the tokens
themselves. A reader that fails leaves the cursor where it was, so that alternatives start
afresh. -/

namespace Localization.Script

/-- What is left of a script, and how many characters came before. -/
structure Cursor where
  rest : List Char
  offset : Nat

/-- A reader goes on from a cursor, or fails and leaves it. -/
abbrev Reader := StateT Cursor Option

def endsLine (c : Char) : Bool := c == '\n' || c == '\r' || c == '\u2028' || c == '\u2029'

def isSpace (c : Char) : Bool :=
  let n := c.toNat
  n == 0x20 || (0x09 ≤ n && n ≤ 0x0D) || (0x1C ≤ n && n ≤ 0x1F) || n == 0x85 || n == 0xA0
    || n == 0x1680 || (0x2000 ≤ n && n ≤ 0x200B) || n == 0x2028 || n == 0x2029 || n == 0x202F
    || n == 0x205F || n == 0x2060 || n == 0x3000 || n == 0xFEFF

/-- Whether a character can stand in a name: all but spaces, controls and the marks of the
grammar. -/
def isNameChar (c : Char) : Bool :=
  !isSpace c && 0x20 ≤ c.toNat
    && !(":;\x60\"'@#.,|^&<=>+-*/\\%?!~()[]\x7b\x7d".toList.contains c)

def isNameStart (c : Char) : Bool := isNameChar c && !c.isDigit

namespace Reader

/-- What a gap is inside of while it is passed over. -/
inductive Inside where
  | blank
  | lineComment
  | blockComment
  deriving DecidableEq

/-- Passes over blanks and comments. The first result tells whether a line ended. -/
def skipGap : Inside → Bool → List Char → Nat → Bool × Cursor
  | _, broken, [], n => (broken, ⟨[], n⟩)
  | .lineComment, broken, c :: cs, n =>
    if endsLine c then skipGap .blank true cs (n + 1) else skipGap .lineComment broken cs (n + 1)
  | .blockComment, broken, '*' :: '/' :: cs, n => skipGap .blank broken cs (n + 2)
  | .blockComment, broken, c :: cs, n => skipGap .blockComment (broken || endsLine c) cs (n + 1)
  | .blank, broken, '/' :: '/' :: cs, n => skipGap .lineComment broken cs (n + 2)
  | .blank, broken, '/' :: '*' :: cs, n => skipGap .blockComment broken cs (n + 2)
  | .blank, broken, c :: cs, n =>
    if isSpace c then skipGap .blank (broken || endsLine c) cs (n + 1)
    else (broken, ⟨c :: cs, n⟩)

/-- Passes over the gap before the next token; tells whether a line ends in it. -/
def gapBreaks : Reader Bool := fun c =>
  let (broken, d) := skipGap .blank false c.rest c.offset
  some (broken, d)

/-- Passes over blanks and comments. -/
def gap : Reader Unit := discard gapBreaks

/-- Whether a line ends before the next token. -/
def newlineAhead : Reader Bool := fun c => some ((skipGap .blank false c.rest c.offset).1, c)

/-- The characters from the next token on. The gap before it is not passed over. -/
def ahead : Reader (List Char) := fun c => some ((skipGap .blank false c.rest c.offset).2.rest, c)

/-- Goes to the next token and gives its offset. -/
def here : Reader Nat := do gap; return (← get).offset

def advance (n : Nat) : Reader Unit := modify fun c => ⟨c.rest.drop n, c.offset + n⟩

/-- Passes over the gap before the next token and over its first `n` characters. -/
def skip (n : Nat) : Reader Unit := do gap; advance n

/-- The characters between an earlier cursor and this one. -/
def since (c : Cursor) : Reader (List Char) := do
  return c.rest.take ((← get).offset - c.offset)

/-- Fails unless a condition holds. -/
def check (b : Bool) : Reader Unit := if b then pure () else failure

/-- What follows `mark`, if the characters begin with it. -/
def afterMark? : (mark : List Char) → List Char → Option (List Char)
  | [], cs => some cs
  | _ :: _, [] => none
  | m :: ms, c :: cs => if m == c then afterMark? ms cs else none

/-- The next characters are `mark`, wherever a token may begin. -/
def mark (s : String) : Reader Unit := do
  gap
  let m := s.toList
  match afterMark? m (← get).rest with
  | some rest => set (⟨rest, (← get).offset + m.length⟩ : Cursor)
  | none => failure

/-- A mark comes next, behind blanks and comments. -/
def markAhead (s : String) : Reader Bool := do
  return (afterMark? s.toList (← ahead)).isSome

/-- The characters of a name at the start of a list. An escaped character is part of a name. -/
def nameAt : List Char → List Char
  | '\\' :: 'u' :: '{' :: cs => '\\' :: 'u' :: '{' :: braced cs
  | '\\' :: 'u' :: a :: b :: c :: d :: cs => '\\' :: 'u' :: a :: b :: c :: d :: nameAt cs
  | c :: cs => if isNameChar c then c :: nameAt cs else []
  | [] => []
where
  /-- The rest of an escape in braces, then the rest of the name. -/
  braced : List Char → List Char
  | '}' :: cs => '}' :: nameAt cs
  | c :: cs => c :: braced cs
  | [] => []

/-- The name or keyword that comes next; empty if another token does. -/
def wordAhead : Reader (List Char) := do
  let cs ← ahead
  match cs with
  | c :: _ => return if isNameStart c || c == '\\' then nameAt cs else []
  | [] => return []

def word : Reader (Nat × List Char) := do
  let start ← here
  let w ← wordAhead
  check !w.isEmpty
  advance w.length
  return (start, w)

def keyword (s : String) : Reader Unit := do
  check ((← wordAhead) == s.toList)
  skip s.length

/-- The keyword `s` on the line of what came before it. -/
def keywordHere (s : String) : Reader Unit := do
  check !(← newlineAhead)
  keyword s

/-- Results of a reader, as often as it succeeds and moves on, `fuel` times at most. -/
def many {α : Type} (p : Reader α) : (fuel : Nat) → Reader (List α)
  | 0 => pure []
  | fuel + 1 => fun c =>
    match p.run c with
    | none => some ([], c)
    | some (a, d) =>
      if d.offset == c.offset then some ([], c)
      else match many p fuel d with
        | some (as, e) => some (a :: as, e)
        | none => some ([a], d)

/-- Zero or more results with `separator` between them; one more separator may follow the last. -/
def sepBy {α : Type} (fuel : Nat) (separator : String) (p : Reader α) : Reader (List α) := do
  (do let a ← p
      let as ← many (mark separator *> p) fuel
      (mark separator <|> pure ())
      return a :: as) <|> pure []

/-- A result, or nothing where the reader fails. -/
def optionally {α : Type} (p : Reader α) : Reader (Option α) := (some <$> p) <|> pure none

/-- The result of a reader as a list, empty where it fails. -/
def listOf {α : Type} (p : Reader α) : Reader (List α) := ((fun a => [a]) <$> p) <|> pure []

/-- The end of a statement: a semicolon, or a place where one may be left out. -/
def semicolon : Reader Unit :=
  mark ";" <|> do
    let broken ← newlineAhead
    match ← ahead with
    | [] => pure ()
    | '}' :: _ => pure ()
    | _ => check broken

end Reader

end Localization.Script
