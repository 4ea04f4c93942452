import Localization.Script.Reader
import Localization.Script.Escape

/-! The literals of a script that need no other rule of the grammar: strings, numbers and regular
expressions. A malformed escape does not end a literal; the closing quote does. -/

namespace Localization.Script.Reader

/-- How many characters an escape sequence takes, its backslash included, given those after it. -/
def escapeLength : List Char → Nat
  | [] => 1
  | '\r' :: '\n' :: _ => 3
  | 'x' :: a :: b :: _ => if (hex? [a, b]).isSome then 4 else 2
  | 'u' :: '{' :: cs =>
    let digits := cs.takeWhile (· ≠ '}')
    if (hex? digits).isSome then digits.length + 4 else 2
  | 'u' :: a :: b :: c :: d :: _ => if (hex? [a, b, c, d]).isSome then 6 else 2
  | _ => 2

/-- A leaf of a string with the collected characters, if there are any. -/
def flush (kind : Kind) (start : Nat) (collected : List Char) : List Tree :=
  if collected.isEmpty then [] else [.leaf kind start collected.reverse]

/-- The parts of a string up to its closing quote. `left` counts the characters that an escape
sequence still takes, `run` holds the part being read, backwards, and `start` is its offset. -/
def stringParts (quote : Char) :
    (left : Nat) → (start offset : Nat) → (run : List Char) → List Char →
      Option (List Tree × Cursor)
  | _, _, _, _, [] => none
  | n + 1, start, offset, run, c :: cs =>
    match n with
    | 0 => (stringParts quote 0 (offset + 1) (offset + 1) [] cs).map fun (ts, d) =>
        (.leaf .escape start (c :: run).reverse :: ts, d)
    | m + 1 => stringParts quote (m + 1) start (offset + 1) (c :: run) cs
  | 0, start, offset, run, c :: cs =>
    if c == quote then some (flush .fragment start run, ⟨cs, offset + 1⟩)
    else if c == '\\' then
      (stringParts quote (escapeLength cs - 1) offset (offset + 1) ['\\'] cs).map fun (ts, d) =>
        (flush .fragment start run ++ ts, d)
    else if c == '\n' then none
    else stringParts quote 0 start (offset + 1) (c :: run) cs

/-- A string, with the runs of its characters and its escape sequences as parts. -/
def stringLiteral : Reader Tree := do
  gap
  let c ← get
  match c.rest with
  | q :: cs =>
    check (q == '\x27' || q == '"')
    match stringParts q 0 (c.offset + 1) (c.offset + 1) [] cs with
    | some (parts, d) => set d; return .node .string c.offset parts
    | none => failure
  | [] => failure

/-- The string value of a markup attribute: it has no escapes and may span lines. -/
def markupString : Reader Tree := do
  gap
  let c ← get
  match c.rest with
  | q :: cs =>
    check (q == '\x27' || q == '"')
    let inner := cs.takeWhile (· ≠ q)
    check (inner.length < cs.length)
    advance (inner.length + 2)
    return .node .string c.offset [.leaf .fragment (c.offset + 1) inner]
  | [] => failure

/-- The characters of digits, which may be grouped by underscores. -/
def digitsAt (isDigit : Char → Bool) (cs : List Char) : List Char :=
  cs.takeWhile fun c => isDigit c || c == '_'

/-- The exponent of a number, if one begins here. -/
def exponentAt : List Char → List Char
  | e :: s :: cs =>
    if e == 'e' || e == 'E' then
      if s == '+' || s == '-' then
        let ds := digitsAt Char.isDigit cs
        if ds.isEmpty then [] else e :: s :: ds
      else
        let ds := digitsAt Char.isDigit (s :: cs)
        if ds.isEmpty then [] else e :: ds
    else []
  | _ => []

/-- A fraction and an exponent at the start of a list. -/
def fractionAt : List Char → List Char
  | '.' :: cs =>
    let ds := digitsAt Char.isDigit cs
    '.' :: ds ++ exponentAt (cs.drop ds.length)
  | cs => exponentAt cs

/-- The mark of a big integer at the start of a list. -/
def bigAt : List Char → List Char
  | 'n' :: _ => ['n']
  | _ => []

/-- The characters of a number at the start of a list; empty if there is none. -/
def numberAt : List Char → List Char
  | '0' :: x :: cs =>
    let based (isDigit : Char → Bool) : List Char :=
      let ds := digitsAt isDigit cs
      '0' :: x :: ds ++ bigAt (cs.drop ds.length)
    if x == 'x' || x == 'X' then based fun c => (hexDigit? c).isSome
    else if x == 'o' || x == 'O' then based fun c => '0' ≤ c ∧ c ≤ '7'
    else if x == 'b' || x == 'B' then based fun c => c == '0' || c == '1'
    else decimal ('0' :: x :: cs)
  | '.' :: d :: cs => if d.isDigit then fractionAt ('.' :: d :: cs) else []
  | cs => decimal cs
where
  decimal (cs : List Char) : List Char :=
    let ds := if (cs.headD ' ').isDigit then digitsAt Char.isDigit cs else []
    if ds.isEmpty then []
    else
      let rest := cs.drop ds.length
      match bigAt rest with
      | [] => ds ++ fractionAt rest
      | big => ds ++ big

def number : Reader Tree := do
  let start ← here
  let digits := numberAt (← get).rest
  check !digits.isEmpty
  advance digits.length
  return .leaf .number start digits

/-- How many characters a regular expression takes after its first slash, its flags apart.
`inClass` tells whether a bracket is open. -/
def patternLength : (inClass : Bool) → List Char → Option Nat
  | _, [] => none
  | inClass, '\\' :: _ :: cs => (patternLength inClass cs).map (· + 2)
  | inClass, c :: cs =>
    if endsLine c then none
    else if c == '/' && !inClass then some 1
    else
      let inside := if c == '[' then true else if c == ']' then false else inClass
      (patternLength inside cs).map (· + 1)

/-- A regular expression with its flags. -/
def regularExpression : Reader Tree := do
  let start ← here
  match (← get).rest with
  | '/' :: cs =>
    match patternLength false cs with
    | some n =>
      let flags := (cs.drop n).takeWhile isNameChar
      advance (1 + n + flags.length)
      return .leaf .other start []
    | none => failure
  | _ => failure

end Localization.Script.Reader
