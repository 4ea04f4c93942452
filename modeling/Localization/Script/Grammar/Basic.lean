import Localization.Script.Literal

/-! The shape of the grammar. Its rules refer to one another, so each construct is written against a
`Grammar`, a reader for every rule that constructs refer to; `Script.Parse` ties the knot. -/

namespace Localization.Script

/-- How an expression is limited by its surroundings. -/
structure Mode where
  /-- The keyword `in` ends the expression, as in the head of a loop. -/
  endsAtIn : Bool := false
  /-- An arrow function has no result type, as between the marks of a conditional. -/
  plainArrows : Bool := false

/-- The constructs that others refer to. -/
inductive Rule where
  | statement
  /-- One or more assignment expressions with commas between them. -/
  | expression (mode : Mode)
  | assignment (mode : Mode)
  /-- A prefix operator with its operand, or an operand with what follows it. -/
  | unary
  | primary
  | pattern
  | type
  | element

/-- Readers for the rules, whether the script may hold markup, and a bound on repetitions. -/
structure Grammar where
  rule : Rule → Reader Tree
  markup : Bool
  fuel : Nat

namespace Grammar

variable (g : Grammar)

def statement : Reader Tree := g.rule .statement

/-- An expression with nothing around it to limit it. -/
def expression : Reader Tree := g.rule (.expression {})

def assignment : Reader Tree := g.rule (.assignment {})

def type : Reader Tree := g.rule .type

def pattern : Reader Tree := g.rule .pattern

open Reader

/-- A type after a colon, if there is one. -/
def typeAnnotation : Reader (List Tree) := listOf (mark ":" *> g.type)

def many {α : Type} (p : Reader α) : Reader (List α) := Reader.many p g.fuel

/-- Zero or more results with commas between them. -/
def commaList {α : Type} (p : Reader α) : Reader (List α) := sepBy g.fuel "," p

/-- Passes over the comments before the next token and keeps them. -/
def comments : Reader (List Tree) := do
  let one : Reader Tree := do
    let c ← get
    modify fun c =>
      let blanks := c.rest.takeWhile isSpace
      ⟨c.rest.drop blanks.length, c.offset + blanks.length⟩
    let start := (← get).offset
    match (← get).rest with
    | '/' :: '/' :: _ =>
      advance ((← get).rest.takeWhile (!endsLine ·)).length
      return .leaf .comment start []
    | '/' :: '*' :: cs =>
      advance (2 + blockLength cs)
      return .leaf .comment start []
    | _ => set c; failure
  g.many one
where
  /-- How many characters a comment takes after its opening mark. -/
  blockLength : List Char → Nat
  | '*' :: '/' :: _ => 2
  | _ :: cs => blockLength cs + 1
  | [] => 0

/-- The name of a property: a word, a string, a number, a private name or an expression in
brackets. -/
def propertyName : Reader Tree := do
  let start ← here
  match (← get).rest with
  | '[' :: _ => do
    mark "["
    let e ← g.assignment
    mark "]"
    return .node .other start [e]
  | '#' :: _ => do
    mark "#"
    let (_, w) ← word
    return .leaf .other start ('#' :: w)
  | c :: _ =>
    if c == '\x27' || c == '"' then stringLiteral
    else if c.isDigit || c == '.' then number
    else do
      let (start, w) ← word
      return .leaf .propertyName start w
  | [] => failure

/-- An expression that is spread out in a list of others. -/
def spread (start : Nat) : Reader Tree := do
  mark "..."
  let e ← g.assignment
  return .node .other start [e]

/-- The arguments of a call, in parentheses, with the comments among them. -/
def argumentList : Reader Tree := do
  let start ← here
  mark "("
  let items ← g.many (do
    let notes ← g.comments
    check !(← markAhead ")")
    let start ← here
    let e ← g.spread start <|> g.assignment
    let after ← g.comments
    (mark "," <|> (do check (← markAhead ")")))
    return notes ++ e :: after)
  let notes ← g.comments
  mark ")"
  return .node .arguments start (items.flatten ++ notes)

/-- One of `words` as a modifier of what follows, which begins with none of the characters that
follow a name. -/
def modifierOf (words : List String) : Reader Unit := do
  let w ← wordAhead
  check (words.any fun s => s.toList == w)
  skip w.length
  let next ← ahead
  check !(next.isEmpty || "(:,=?!;<)\x7d".toList.contains (next.headD ' '))

end Grammar

end Localization.Script
