import Localization.Script.Grammar.Members
import Localization.Script.Grammar.Markup

/-! Expressions. Calls, members, assignments and literals are told apart; a chain of operators is
one `other` node over its operands, since no rule looks at how tightly they bind. -/

namespace Localization.Script.Grammar

open Reader

variable (g : Grammar)

/-- A template literal. Its substitutions keep their characters. -/
def templateLiteral : Reader Tree := do
  let start ← here
  mark "\x60"
  let parts ← g.many (do
    let c ← get
    match c.rest with
    | '$' :: '{' :: _ => do
      advance 2
      let e ← g.expression
      mark "\x7d"
      let raw ← since c
      return Tree.node .substitution c.offset [.leaf .source c.offset raw, e]
    | cs => do
      let run := chunkAt cs
      check !run.isEmpty
      advance run.length
      return .leaf .chunk c.offset run)
  check ((← get).rest.headD ' ' == '\x60')
  advance 1
  return .node .template start parts
where
  /-- The characters before the next substitution or the closing quote. -/
  chunkAt : List Char → List Char
  | '\\' :: c :: cs => '\\' :: c :: chunkAt cs
  | '$' :: '{' :: _ => []
  | c :: cs => if c == '\x60' then [] else c :: chunkAt cs
  | [] => []

def arrayLiteral : Reader Tree := do
  let start ← here
  mark "["
  let items ← g.many (do
    match ← ahead with
    | ',' :: _ => skip 1; return []
    | _ => do
      let start ← here
      let e ← g.spread start <|> g.assignment
      (mark "," <|> (do check (← markAhead "]")))
      return [e])
  mark "]"
  return .node .array start items.flatten

/-- `new` with a constructor, which holds no call, and its arguments. -/
def newExpression (chain : Tree → Reader Tree) : Reader Tree := do
  let start ← here
  keyword "new"
  (do mark "."
      discard word
      return .leaf .other start [])
    <|> (do
      let callee ← chain (← g.rule .primary)
      let types ← listOf g.expressionTypeArguments
      let args ← listOf g.argumentList
      return .node .other start (callee :: types ++ args))

/-- Whether the characters after type arguments show that these belong to an expression without a
call. -/
def endsOperand : List Char → Bool
  | [] => true
  | c :: _ => ")],;:.?=|&^*%!\x7d".toList.contains c

/-- The name after a dot, which may be a private one. -/
def memberName : Reader Tree :=
  (do
    let (s, w) ← word
    return .leaf .propertyName s w)
  <|> (do
    mark "#"
    let (s, w) ← word
    return .leaf .other s ('#' :: w))

/-- An operand with an index behind it. -/
def indexed (t : Tree) : Reader Tree := do
  mark "["
  let e ← g.expression
  mark "]"
  return .node .other t.start [t, e]

/-- An operand with arguments behind it. -/
def called (t : Tree) : Reader Tree := do
  let args ← g.argumentList
  return .node .call t.start [t, args]

/-- An operand with arguments behind it, and types behind these in the tree. -/
def calledWith (t types : Tree) : Reader Tree := do
  let args ← g.argumentList
  return .node .call t.start [t, args, types]

/-- What may follow an operand: members, indices, calls, templates and assertions. A constructor
after `new` takes no call. -/
def suffixed (calls : Bool) : (fuel : Nat) → Tree → Reader Tree
  | 0, t => pure t
  | n + 1, t => do
    let broken ← newlineAhead
    match ← ahead with
    | '?' :: '.' :: c :: _ =>
      if c.isDigit then pure t
      else do
        skip 2
        let next ← indexed g t <|> called g t <|> (do calledWith g t (← g.typeArguments))
          <|> (do
            let p ← memberName
            return .node .member t.start [t, p])
        suffixed calls n next
    | '.' :: _ => do
      mark "."
      let p ← memberName
      suffixed calls n (.node .member t.start [t, p])
    | '[' :: _ => do suffixed calls n (← indexed g t)
    | '(' :: _ => if calls then do suffixed calls n (← called g t) else pure t
    | '\x60' :: _ => do
      let text ← g.templateLiteral
      suffixed calls n (.node .call t.start [t, text])
    | '!' :: c =>
      if broken || c.headD ' ' == '=' then pure t
      else do
        mark "!"
        suffixed calls n (.node .other t.start [t])
    | '<' :: _ =>
      (do check calls
          let types ← g.expressionTypeArguments
          let next ← calledWith g t types
            <|> (do
              check (← markAhead "\x60")
              let text ← g.templateLiteral
              return .node .other t.start [t, types, text])
            <|> (do
              check (endsOperand (← ahead) || (← newlineAhead))
              return .node .other t.start [t, types])
          suffixed calls n next)
        <|> pure t
    | _ => pure t

/-- An operand that begins with a word. -/
def wordOperand : Reader Tree := do
  let start ← here
  let w ← wordAhead
  match String.ofList w with
  | "function" => g.functionExpression
  | "class" => g.classExpression
  | "new" => newExpression g (suffixed g false g.fuel)
  | "import" => do
    keyword "import"
    (do mark "."
        discard word) <|> (do check (← markAhead "("))
    return .leaf .other start []
  | "async" => g.functionExpression <|> identifier
  | "this" | "super" | "null" | "true" | "false" | "undefined" => do
    discard word
    return .leaf .other start w
  | _ => identifier

/-- An operand, told by its first character. -/
def primaryRule : Reader Tree := do
  let start ← here
  match (← get).rest with
  | '(' :: _ => do
    mark "("
    let e ← g.expression
    mark ")"
    return .node .other start [e]
  | '[' :: _ => g.arrayLiteral
  | '{' :: _ => g.objectLiteral
  | '\x60' :: _ => g.templateLiteral
  | '/' :: _ => regularExpression
  | '@' :: _ => g.classExpression
  | '<' :: _ => do
    check g.markup
    g.rule .element
  | '#' :: _ => do
    mark "#"
    let (_, w) ← word
    return .leaf .other start ('#' :: w)
  | c :: _ =>
    if c == '\x27' || c == '"' then stringLiteral
    else if c.isDigit || c == '.' then number
    else wordOperand g
  | [] => failure

/-- Whether an operand can begin with these characters, when they come after a keyword that may also
be a name. -/
def beginsOperand : List Char → Bool
  | [] => false
  | '=' :: _ => false
  | c :: _ => !(")],;:.?|&^*%>=\x7d".toList.contains c)

/-- A prefix operator, read with `head`, and its operand. -/
def under (start : Nat) (head : Reader Unit) : Reader Tree := do
  head
  let e ← g.rule .unary
  return .node .other start [e]

/-- An operand with its suffixes. -/
def operand (start : Nat) : Reader Tree := do
  let e ← suffixed g true g.fuel (← primaryRule g)
  (do check !(← newlineAhead)
      (mark "++" <|> mark "--")
      return .node .other start [e])
    <|> pure e

/-- A prefix operator with its operand, or an operand with its suffixes. -/
def unaryRule : Reader Tree := do
  let start ← here
  match (← get).rest with
  | '!' :: _ => under g start (mark "!")
  | '~' :: _ => under g start (mark "~")
  | '+' :: '+' :: _ => under g start (mark "++")
  | '-' :: '-' :: _ => under g start (mark "--")
  | '+' :: _ => under g start (mark "+")
  | '-' :: _ => under g start (mark "-")
  | '<' :: _ => if g.markup then operand g start else (do
      let t ← g.typeArguments
      let e ← g.rule .unary
      return .node .other start [t, e])
  | _ =>
    under g start (keyword "typeof" <|> keyword "void" <|> keyword "delete")
      <|> under g start (do
        keyword "await"
        check (beginsOperand (← ahead)))
      <|> operand g start

/-- How many characters a binary operator takes at the start of a list; nothing before an operator
that assigns. -/
def binaryMark : List Char → Option Nat
  | '>' :: '>' :: '>' :: '=' :: _ => none
  | '>' :: '>' :: '>' :: _ => some 3
  | '>' :: '>' :: '=' :: _ | '<' :: '<' :: '=' :: _ | '&' :: '&' :: '=' :: _
  | '|' :: '|' :: '=' :: _ | '?' :: '?' :: '=' :: _ | '*' :: '*' :: '=' :: _ => none
  | '=' :: '=' :: '=' :: _ | '!' :: '=' :: '=' :: _ => some 3
  | '>' :: '>' :: _ | '<' :: '<' :: _ | '&' :: '&' :: _ | '|' :: '|' :: _ | '?' :: '?' :: _
  | '*' :: '*' :: _ | '>' :: '=' :: _ | '<' :: '=' :: _ | '=' :: '=' :: _
  | '!' :: '=' :: _ => some 2
  | '+' :: '+' :: _ | '-' :: '-' :: _ => none
  | _ :: '=' :: _ => none
  | c :: _ => if "<>&|^+-*/%".toList.contains c then some 1 else none
  | [] => none

/-- A binary operator and its right operand, or a type after `as`. -/
def binaryTail (m : Mode) : Reader Tree := do
  let cs ← ahead
  match binaryMark cs with
  | some n => do
    skip n
    g.rule .unary
  | none =>
    (do (keywordHere "as" <|> keywordHere "satisfies")
        g.type)
      <|> (do
        (keyword "instanceof" <|> (do check !m.endsAtIn; keyword "in"))
        g.rule .unary)

def binary (m : Mode) : Reader Tree := do
  let e ← g.rule .unary
  let more ← g.many (binaryTail g m)
  return if more.isEmpty then e else .node .other e.start (e :: more)

/-- The question mark of a choice, which is no other operator. -/
def questionMark : Reader Unit := do
  match ← ahead with
  | '?' :: '.' :: c :: _ => check c.isDigit
  | '?' :: '?' :: _ => failure
  | _ => pure ()
  mark "?"

/-- The two branches of a choice behind its test. -/
def branches (m : Mode) (plainArrows : Bool) (test : Tree) : Reader Tree := do
  questionMark
  let yes ← g.rule (.assignment { plainArrows })
  mark ":"
  let no ← g.rule (.assignment m)
  return .node .other test.start [test, yes, no]

/-- A choice between two expressions, or an operand of one. An arrow function before the colon has a
result type only if a colon is left for the choice. -/
def conditional (m : Mode) : Reader Tree := do
  let test ← binary g m
  branches g m m.plainArrows test <|> branches g m true test <|> pure test

/-- Whether the characters after an angle bracket name a type parameter and no tag. -/
def namesType (cs : List Char) : Bool :=
  let afterWord (cs : List Char) : List Char :=
    let cs := cs.dropWhile isSpace
    (cs.drop (nameAt cs).length).dropWhile isSpace
  match afterWord cs with
  | ',' :: _ => true
  | rest => nameAt rest == "extends".toList && !("=/>".toList.contains ((afterWord rest).headD '>'))

/-- The body of an arrow function, with its arrow: a block or an expression. -/
def arrowBody (m : Mode) : Reader Tree := do
  mark "=>"
  match ← ahead with
  | '{' :: _ => g.block
  | _ => g.rule (.assignment m)

/-- The type of the result of an arrow function. -/
def arrowResult (m : Mode) : Reader (List Tree) :=
  if m.plainArrows then pure [] else g.typeAnnotation

/-- An arrow function with parameters in parentheses. -/
def arrowOfParameters (m : Mode) (start : Nat) : Reader Tree := do
  let ts ← listOf g.typeParameters
  let ps ← g.parameters
  let result ← arrowResult g m
  check !(← newlineAhead)
  let b ← arrowBody g m
  return .node .other start (ts ++ ps :: result ++ [b])

/-- An arrow function with a name as its parameter. -/
def arrowOfName (m : Mode) (start : Nat) : Reader Tree := do
  let p ← identifier
  check !(← newlineAhead)
  let b ← arrowBody g m
  return .node .other start [p, b]

/-- A function with an arrow, its parameters in parentheses or a single one without. -/
def arrowFunction (m : Mode) : Reader Tree := do
  let start ← here
  match (← get).rest with
  | '(' :: _ => arrowOfParameters g m start
  | '<' :: cs =>
    check (!g.markup || namesType cs)
    arrowOfParameters g m start
  | c :: _ =>
    check (isNameStart c || c == '\\')
    (do keyword "async"
        check !(← newlineAhead)
        arrowOfParameters g m start <|> arrowOfName g m start)
      <|> arrowOfName g m start
  | [] => failure

/-- How many characters an operator takes that assigns and also computes. -/
def compoundMark (cs : List Char) : Option Nat :=
  (["+=", "-=", "*=", "/=", "%=", "&=", "|=", "^=", "<<=", ">>=", ">>>=", "**=", "&&=", "||=",
    "\x3f\x3f="].find? fun s => (afterMark? s.toList cs).isSome).map String.length

def yieldExpression (m : Mode) : Reader Tree := do
  let start ← here
  keyword "yield"
  let e ← listOf (do
    check !(← newlineAhead)
    mark "*" <|> (do check (beginsOperand (← ahead)))
    g.rule (.assignment m))
  check (!e.isEmpty || !(← markAhead "=") && !(← markAhead "."))
  return .node .other start e

/-- An expression without a comma at its top. -/
def assignmentRule (m : Mode) : Reader Tree :=
  arrowFunction g m <|> yieldExpression g m <|> do
    let left ← conditional g m
    match ← ahead with
    | '=' :: c :: _ =>
      if c == '=' || c == '>' then pure left
      else do
        mark "="
        let right ← g.rule (.assignment m)
        return .node .assignment left.start [left, right]
    | cs =>
      match compoundMark cs with
      | some n => do
        skip n
        let right ← g.rule (.assignment m)
        return .node .other left.start [left, right]
      | none => pure left

/-- One or more assignment expressions, with commas between them. -/
def expressionRule (m : Mode) : Reader Tree := do
  let e ← g.rule (.assignment m)
  let more ← g.many (mark "," *> g.rule (.assignment m))
  return if more.isEmpty then e else .node .other e.start (e :: more)

end Localization.Script.Grammar
