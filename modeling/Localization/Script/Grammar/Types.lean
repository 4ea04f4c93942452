import Localization.Script.Grammar.Basic

/-! Types. Nothing below a type is looked at but the expressions in brackets that name members, so a
type is an `other` node that holds its parts. -/

namespace Localization.Script.Grammar

open Reader

variable (g : Grammar)

def parts (start : Nat) (ts : List Tree) : Tree := .node .other start ts

def typeArguments : Reader Tree := do
  let start ← here
  mark "<"
  let ts ← g.commaList g.type
  mark ">"
  return parts start ts

/-- Type arguments inside an expression: their closing bracket is no part of a longer operator. -/
def expressionTypeArguments : Reader Tree := do
  let t ← g.typeArguments
  match (← get).rest with
  | c :: _ => check !(c == '>' || c == '=')
  | [] => pure ()
  return t

/-- Names of types in angle brackets, with their bounds and defaults. -/
def typeParameters : Reader Tree := do
  let start ← here
  mark "<"
  let ts ← g.commaList (do
    discard (g.many (modifierOf ["const", "in", "out"]))
    discard word
    let bound ← listOf (keyword "extends" *> g.type)
    let standard ← listOf (mark "=" *> g.type)
    return parts start (bound ++ standard))
  mark ">"
  return parts start ts

/-- A parameter: modifiers, a pattern, its type and its default. -/
def parameter : Reader Tree := do
  let start ← here
  let decorators ← g.many (do
    mark "@"
    g.rule .unary)
  discard (g.many (modifierOf ["public", "private", "protected", "readonly", "override", "static"]))
  discard (optionally (mark "..."))
  let p ← g.pattern
  discard (optionally (mark "?"))
  let t ← g.typeAnnotation
  let value ← listOf (mark "=" *> g.assignment)
  return parts start (decorators ++ p :: t ++ value)

def parameters : Reader Tree := do
  let start ← here
  mark "("
  let ps ← g.commaList g.parameter
  mark ")"
  return parts start ps

/-- Type parameters, parameters and the type of the result. -/
def signature : Reader (List Tree) := do
  let ts ← listOf g.typeParameters
  let ps ← g.parameters
  let result ← g.typeAnnotation
  return ts ++ ps :: result

def functionType : Reader Tree := do
  let start ← here
  discard (optionally (modifierOf ["abstract"] *> pure ()))
  discard (optionally (keyword "new"))
  let ts ← listOf g.typeParameters
  let ps ← g.parameters
  mark "=>"
  let result ← g.type
  return parts start (ts ++ [ps, result])

/-- The key of an index signature or of a mapped type, in brackets. -/
def indexKey : Reader (List Tree) := do
  mark "["
  discard word
  (mark ":" <|> keyword "in")
  let t ← g.type
  let renamed ← listOf (keyword "as" *> g.type)
  mark "]"
  return t :: renamed

/-- A member of the type of an object. -/
def typeMember : Reader Tree := do
  let start ← here
  discard (optionally ((mark "+" <|> mark "-") *> keyword "readonly"))
  discard (g.many (modifierOf ["readonly", "get", "set"]))
  let body ← indexed <|> (do discard (optionally (keyword "new")); g.signature) <|> named
  (mark ";" <|> mark "," <|> semicolon)
  return parts start body
where
  indexed : Reader (List Tree) := do
    let key ← g.indexKey
    discard (optionally ((mark "+" <|> mark "-") *> mark "?"))
    discard (optionally (mark "?"))
    return key ++ (← g.typeAnnotation)
  named : Reader (List Tree) := do
    let name ← g.propertyName
    discard (optionally (mark "?"))
    let rest ← g.signature <|> g.typeAnnotation
    return name :: rest

def objectType : Reader Tree := do
  let start ← here
  mark "\x7b"
  let ms ← g.many g.typeMember
  mark "\x7d"
  return parts start ms

/-- An element of a tuple, with a name or without. -/
def tupleElement : Reader Tree := do
  let start ← here
  discard (optionally (mark "..."))
  let t ← (do
      discard word
      discard (optionally (mark "?"))
      mark ":"
      g.type) <|> g.type
  discard (optionally (mark "?"))
  return parts start [t]

/-- A template that stands for a type. -/
def templateType : Reader Tree := do
  let start ← here
  mark "\x60"
  let ts ← g.many (do
    let c ← get
    match c.rest with
    | '$' :: '{' :: _ => do
      advance 2
      let t ← g.type
      mark "\x7d"
      return [t]
    | '\\' :: _ => advance 2; return []
    | x :: _ => check (x ≠ '\x60'); advance 1; return []
    | [] => failure)
  check ((← get).rest.headD ' ' == '\x60')
  advance 1
  return parts start ts.flatten

/-- A name with dots in it, and its type arguments. -/
def typeReference : Reader Tree := do
  let (start, _) ← word
  discard (g.many (mark "." *> (discard (optionally (mark "#")) *> word)))
  let args ← listOf g.typeArguments
  return parts start args

def primaryType : Reader Tree := do
  let start ← here
  match (← get).rest with
  | '(' :: _ => do
    mark "("
    let t ← g.type
    mark ")"
    return parts start [t]
  | '{' :: _ => g.objectType
  | '[' :: _ => do
    mark "["
    let ts ← g.commaList g.tupleElement
    mark "]"
    return parts start ts
  | '\x60' :: _ => g.templateType
  | '-' :: _ => do
    mark "-"
    number
  | c :: _ =>
    if c == '\x27' || c == '"' then stringLiteral
    else if c.isDigit then number
    else
      (do keyword "typeof"
          importType <|> g.typeReference)
        <|> importType <|> g.typeReference
  | [] => failure
where
  importType : Reader Tree := do
    let start ← here
    keyword "import"
    mark "("
    let ts ← g.commaList g.type
    mark ")"
    discard (g.many (mark "." *> word))
    let args ← listOf g.typeArguments
    return parts start (ts ++ args)

/-- A type with the brackets after it, on the same line. -/
def arrayType : Reader Tree := do
  let t ← g.primaryType
  let more ← g.many (do
    check !(← newlineAhead)
    mark "["
    let index ← listOf g.type
    mark "]"
    return index)
  return if more.isEmpty then t else parts t.start (t :: more.flatten)

/-- A type behind operators, of which at most `n` are read. -/
def operatorType : Nat → Reader Tree
  | 0 => failure
  | n + 1 => do
    let start ← here
    (do keyword "keyof" <|> modifierOf ["unique", "readonly"]
        let t ← operatorType n
        return parts start [t])
      <|> (do
        keyword "infer"
        discard word
        let bound ← listOf (do
          keyword "extends"
          let t ← operatorType n
          check !(← markAhead "?")
          return t)
        return parts start bound)
      <|> g.arrayType

/-- One or more results with a mark between them that is not doubled; one may come first. -/
def chained (m : Char) (p : Reader Tree) : Reader Tree := do
  let start ← here
  let single : Reader Unit := do
    match ← ahead with
    | a :: b :: _ => check (a == m && b ≠ m)
    | _ => failure
    skip 1
  discard (optionally single)
  let t ← p
  let more ← g.many (single *> p)
  return if more.isEmpty then t else parts start (t :: more)

def unionType : Reader Tree :=
  g.chained '|' (g.chained '&' (g.functionType <|> g.operatorType g.fuel))

/-- A statement about a parameter as the type of a result. -/
def predicateType : Reader Tree := do
  let start ← here
  (do keyword "asserts"
      check !(← newlineAhead)
      discard word
      let t ← listOf (keywordHere "is" *> g.type)
      return parts start t)
    <|> (do
      discard word
      keywordHere "is"
      let t ← g.type
      return parts start [t])

/-- A type: a predicate, a function type, or a union with a condition on it. -/
def typeRule : Reader Tree :=
  g.predicateType <|> g.functionType <|> do
    let t ← g.unionType
    (do keywordHere "extends"
        let bound ← g.unionType
        mark "?"
        let yes ← g.type
        mark ":"
        let no ← g.type
        return parts t.start [t, bound, yes, no])
      <|> pure t

end Localization.Script.Grammar
