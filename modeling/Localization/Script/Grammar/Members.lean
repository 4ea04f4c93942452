import Localization.Script.Grammar.Patterns

/-! Functions, and the members of objects and classes. -/

namespace Localization.Script.Grammar

open Reader

variable (g : Grammar)

def block : Reader Tree := do
  let start ← here
  mark "\x7b"
  let ss ← g.many g.statement
  mark "\x7d"
  return .node .other start ss

/-- A function after its keyword: a name, a signature and a body. A declaration has no body. -/
def functionTail (start : Nat) : Reader Tree := do
  discard (optionally (mark "*"))
  discard (optionally word)
  let s ← g.signature
  let body ← listOf g.block
  if body.isEmpty then semicolon
  return .node .other start (s ++ body)

def functionExpression : Reader Tree := do
  let start ← here
  discard (optionally (keyword "async" *> (do check !(← newlineAhead))))
  keyword "function"
  g.functionTail start

/-- A member of an object literal. A shorthand property may have a default, as in a pattern. -/
def objectMember : Reader Tree := do
  let start ← here
  g.spread start
    <|> (do
      discard (g.many (modifierOf ["async", "get", "set"]))
      discard (optionally (mark "*"))
      let name ← g.propertyName
      discard (optionally (mark "?"))
      let s ← g.signature
      let body ← g.block
      return .node .other start (name :: s ++ [body]))
    <|> (do
      let key ← g.propertyName
      mark ":"
      let value ← g.assignment
      return .node .pair start [key, value])
    <|> (do
      let (start, w) ← word
      let name : Tree := .leaf .other start w
      (do mark "="
          let value ← g.assignment
          return .node .other start [name, value])
        <|> pure name)

def objectLiteral : Reader Tree := do
  let start ← here
  mark "\x7b"
  let ms ← g.commaList g.objectMember
  mark "\x7d"
  return .node .object start ms

/-- A call or a name after an at sign. -/
def decorator : Reader Tree := do
  let start ← here
  mark "@"
  match ← ahead with
  | '(' :: _ => do
    mark "("
    let e ← g.expression
    mark ")"
    return .node .other start [e]
  | _ => do
    let name ← identifier
    let members ← g.many (do
      mark "."
      let (s, w) ← word
      return Tree.leaf .propertyName s w)
    let callee := members.foldl (fun t p => .node .member t.start [t, p]) name
    let types ← listOf g.typeArguments
    (do let args ← g.argumentList
        return .node .other start [.node .call callee.start (callee :: args :: types)])
      <|> return .node .other start (callee :: types)

/-- A member of a class, with what may stand before its name. -/
def classMember : Reader Tree := do
  let start ← here
  (do mark ";"
      return .leaf .other start [])
    <|> (do
      keyword "static"
      g.block)
    <|> (do
      let decorators ← g.many g.decorator
      discard (g.many (modifierOf ["public", "private", "protected", "static", "abstract",
        "override", "readonly", "declare", "accessor", "async", "get", "set"]))
      discard (optionally (mark "*"))
      let body ← indexed <|> method <|> field
      return .node .other start (decorators ++ body))
where
  indexed : Reader (List Tree) := do
    mark "["
    discard word
    mark ":"
    let key ← g.type
    mark "]"
    let t ← g.typeAnnotation
    semicolon
    return key :: t
  method : Reader (List Tree) := do
    let name ← g.propertyName
    discard (optionally (mark "?" <|> mark "!"))
    let s ← g.signature
    let body ← listOf g.block
    if body.isEmpty then semicolon
    return name :: s ++ body
  field : Reader (List Tree) := do
    let name ← g.propertyName
    discard (optionally (mark "?" <|> mark "!"))
    let t ← g.typeAnnotation
    let value ← listOf (mark "=" *> g.assignment)
    semicolon
    return name :: t ++ value

def classExpression : Reader Tree := do
  let start ← here
  let decorators ← g.many g.decorator
  discard (optionally (modifierOf ["abstract"]))
  keyword "class"
  discard (optionally (do
    check !(["extends".toList, "implements".toList].contains (← wordAhead))
    discard word))
  let ps ← listOf g.typeParameters
  let base ← listOf (do
    keyword "extends"
    let e ← g.rule .unary
    let types ← listOf g.typeArguments
    return .node .other e.start (e :: types))
  let contracts ← listOf (do
    keyword "implements"
    let ts ← g.commaList g.type
    return .node .other start ts)
  mark "\x7b"
  let ms ← g.many g.classMember
  mark "\x7d"
  return .node .other start (decorators ++ ps ++ base ++ contracts ++ ms)

end Localization.Script.Grammar
