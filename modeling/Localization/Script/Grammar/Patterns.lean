import Localization.Script.Grammar.Types

/-! Patterns, which bind names: an identifier, or the shape of an object or an array. -/

namespace Localization.Script.Grammar

open Reader

variable (g : Grammar)

/-- The words that are never names of variables. -/
def reservedWords : List (List Char) :=
  ["break", "case", "catch", "class", "const", "continue", "debugger", "default", "delete", "do",
   "else", "enum", "export", "extends", "finally", "for", "function", "if", "import", "in",
   "instanceof", "new", "return", "super", "switch", "this", "throw", "try", "typeof", "var",
   "void", "while", "with", "null", "true", "false"].map String.toList

def identifier : Reader Tree := do
  let (start, w) ← word
  check !(reservedWords.contains w)
  return .leaf .identifier start w

/-- A pattern with the value that stands in for a missing one. -/
def patternWithDefault : Reader Tree := do
  let p ← g.pattern
  (do mark "="
      let value ← g.assignment
      return .node .other p.start [p, value])
    <|> pure p

/-- A pattern for what is left of a list. -/
def restPattern (start : Nat) : Reader Tree := do
  mark "..."
  let p ← g.pattern
  return .node .other start [p]

def patternMember : Reader Tree := do
  let start ← here
  g.restPattern start
    <|> (do
      let key ← g.propertyName
      mark ":"
      let p ← g.patternWithDefault
      return .node .pairPattern start [key, p])
    <|> (do
      let (start, w) ← word
      let name : Tree := .leaf .shorthandProperty start w
      (do mark "="
          let value ← g.assignment
          return .node .other start [name, value])
        <|> pure name)

/-- An element of an array pattern; nothing where it is left out. -/
def patternElement : Reader (List Tree) := do
  let next ← ahead
  match next with
  | ',' :: _ => skip 1; return []
  | _ => do
    let start ← here
    let p ← g.restPattern start <|> g.patternWithDefault
    (mark "," <|> (do check (← markAhead "]")))
    return [p]

/-- A pattern. A parameter may be the word `this`. -/
def patternRule : Reader Tree := do
  let start ← here
  match (← get).rest with
  | '{' :: _ => do
    mark "\x7b"
    let ms ← g.commaList g.patternMember
    mark "\x7d"
    return .node .objectPattern start ms
  | '[' :: _ => do
    mark "["
    let ps ← g.many g.patternElement
    mark "]"
    return .node .other start ps.flatten
  | _ => (do keyword "this"; return .leaf .other start []) <|> identifier

end Localization.Script.Grammar
