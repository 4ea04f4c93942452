import Localization.Script.Grammar.Basic

/-! Markup elements inside a script: a tag with attributes, and content in which only braces and
tags are special. -/

namespace Localization.Script.Grammar

open Reader

variable (g : Grammar)

/-- The name of a tag or an attribute: words with hyphens in them. -/
def markupName : Reader (Nat × List Char) := do
  let start ← here
  let cs := (← get).rest
  let name := cs.takeWhile fun c => isNameChar c || c == '-'
  check (!name.isEmpty && isNameStart (name.headD ' '))
  advance name.length
  return (start, name)

/-- A tag's name, which may have a namespace or members. -/
def tagName : Reader Unit := do
  discard markupName
  discard (g.many ((mark ":" <|> mark ".") *> markupName))

/-- An expression in braces. Only a comment may stand in its place. -/
def markupExpression : Reader Tree := do
  let start ← here
  mark "\x7b"
  let e ← listOf (g.spread start <|> g.expression)
  mark "\x7d"
  return .node .markupExpression start e

/-- An attribute. A name with a namespace is no plain property name. -/
def markupAttribute : Reader Tree := do
  let start ← here
  match (← get).rest with
  | '{' :: _ => g.markupExpression
  | _ => do
    let (_, name) ← markupName
    let inner ← optionally (mark ":" *> markupName)
    let label : Tree :=
      .leaf (if inner.isSome then .other else .propertyName) start name
    let value ← listOf (do
      mark "="
      markupString <|> g.markupExpression <|> g.rule .element)
    return .node .markupAttribute start (label :: value)

/-- A run of content before the next brace or tag. -/
def contentText : Reader (List Tree) := do
  let run := (← get).rest.takeWhile fun c => c ≠ '{' && c ≠ '<'
  advance run.length
  return []

def content : Reader (List Tree) := do
  let ts ← g.many (do
    match (← get).rest with
    | '<' :: cs => do
      check ((cs.dropWhile isSpace).headD '/' ≠ '/')
      let e ← g.rule .element
      return [e]
    | '{' :: _ => do
      let e ← g.markupExpression
      return [e]
    | _ => contentText)
  return ts.flatten

/-- An element: a tag that closes itself, or content between two tags. -/
def elementRule : Reader Tree := do
  let start ← here
  mark "<"
  discard (optionally (tagName g))
  let types ← listOf (do
    mark "<"
    let ts ← g.commaList g.type
    mark ">"
    return .node .other start ts)
  let attributes ← g.many (markupAttribute g)
  (do mark "/"
      mark ">"
      return .node .other start (types ++ attributes))
    <|> (do
      mark ">"
      let inner ← content g
      mark "<"
      mark "/"
      discard (optionally (tagName g))
      mark ">"
      return .node .other start (types ++ attributes ++ inner))

end Localization.Script.Grammar
