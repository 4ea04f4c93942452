import Localization.Script.Grammar.Expressions

/-! Statements and declarations. Declarations of variables and imports bind names and have kinds of
their own. -/

namespace Localization.Script.Grammar

open Reader

variable (g : Grammar)

def other (start : Nat) (ts : List Tree) : Tree := .node .other start ts

/-- A pattern with its value, if it has one. -/
def declarator (m : Mode) : Reader Tree := do
  let p ← g.pattern
  discard (optionally (mark "!"))
  let t ← g.typeAnnotation
  let value ← listOf (mark "=" *> g.rule (.assignment m))
  return .node .declarator p.start (p :: value ++ t)

/-- The word that begins declarations of names; `let` and `using` can be names too. -/
def declarationKeyword : Reader Unit := do
  keyword "var" <|> keyword "const" <|> (do
    keyword "let" <|> (discard (optionally (keyword "await")) *> keyword "using" *>
      (do check !(← newlineAhead)))
    let w ← wordAhead
    let shape := (← markAhead "[") || (← markAhead "\x7b")
    check (shape || !w.isEmpty && !(["in", "of", "instanceof"].map String.toList).contains w))

def declarations (m : Mode) : Reader Tree := do
  let start ← here
  declarationKeyword
  let first ← declarator g m
  let more ← g.many (mark "," *> declarator g m)
  return other start (first :: more)

def dottedName : Reader Unit := do
  discard word
  discard (g.many (mark "." *> word))

/-- The name of something imported or exported: a word or a string. -/
def externalName : Reader Tree :=
  stringLiteral <|> (do
    let (start, w) ← word
    return .leaf (if w == "default".toList then .other else .identifier) start w)

/-- Names in the braces of an import or export end at a comma or a brace. -/
def namesEnd : Reader Unit := do
  check ((← markAhead ",") || (← markAhead "\x7d"))

/-- A name that is imported or exported as it is called. -/
def plainName : Reader (List Tree) := do
  let name ← externalName
  namesEnd
  return [name]

/-- A name and its new name. -/
def renamedName : Reader (List Tree) := do
  let name ← externalName
  keyword "as"
  let local_ ← externalName
  namesEnd
  return [name, local_]

def typeKeyword : Reader Unit := keyword "type" <|> keyword "typeof"

/-- A name in the braces of an import or export, and its new name. -/
def specifier (kind : Kind) : Reader Tree := do
  let start ← here
  let names ← plainName <|> renamedName <|> typeKeyword *> plainName <|> typeKeyword *> renamedName
  return .node kind start names

def importAttributes : Reader Unit := do
  keyword "with" <|> keywordHere "assert"
  discard g.objectLiteral

/-- A name for all of a module. -/
def namespaceClause : Reader (List Tree) := do
  let start ← here
  mark "*"
  keyword "as"
  let name ← identifier
  return [.node .namespaceImport start [name]]

/-- Names in braces. -/
def namedClause : Reader (List Tree) := do
  mark "\x7b"
  let ss ← g.commaList (specifier .importSpecifier)
  mark "\x7d"
  return ss

/-- What an import binds: a default name, names or a namespace. -/
def importClause : Reader (List Tree) :=
  namespaceClause <|> namedClause g <|> (do
    discard identifier
    (mark "," *> (namespaceClause <|> namedClause g)) <|> pure [])

/-- The names of an import before its module. -/
def importedNames : Reader (List Tree) := do
  let names ← importClause g
  keyword "from"
  return names

/-- An import, of which the names and the module are kept. -/
def importStatement : Reader Tree := do
  let start ← here
  keyword "import"
  let names ← importedNames g <|> typeKeyword *> importedNames g <|> pure []
  let source ← stringLiteral
  discard (optionally (importAttributes g))
  semicolon
  return .node .importStatement start (names ++ [source])

/-- A name for an entity of another namespace or module. -/
def importAlias : Reader Tree := do
  let start ← here
  keyword "import"
  discard (optionally (modifierOf ["type"]))
  discard identifier
  mark "="
  (do keyword "require"
      mark "("
      discard stringLiteral
      mark ")") <|> dottedName g
  semicolon
  return other start []

def enumeration : Reader Tree := do
  let start ← here
  discard (optionally (keyword "const"))
  keyword "enum"
  discard word
  mark "\x7b"
  let ms ← g.commaList (do
    let name ← g.propertyName
    let value ← listOf (mark "=" *> g.assignment)
    return other name.start (name :: value))
  mark "\x7d"
  return other start ms

def interface : Reader Tree := do
  let start ← here
  keyword "interface"
  discard word
  let ps ← listOf g.typeParameters
  let bases ← (keyword "extends" *> g.commaList g.type) <|> pure []
  let body ← g.objectType
  return other start (ps ++ bases ++ [body])

def typeAlias : Reader Tree := do
  let start ← here
  keyword "type"
  discard word
  let ps ← listOf g.typeParameters
  mark "="
  let t ← g.type
  semicolon
  return other start (ps ++ [t])

/-- Statements in braces under a name, or a module without a body. -/
def namespaceBlock : Reader Tree := do
  let start ← here
  (keyword "namespace" <|> keyword "module")
  check !(← newlineAhead)
  discard stringLiteral <|> dottedName g
  let body ← listOf g.block
  if body.isEmpty then semicolon
  return other start body

/-- A declaration of any kind. -/
def declaration : Reader Tree :=
  enumeration g
    <|> (do
      let ds ← declarations g {}
      semicolon
      return ds)
    <|> g.functionExpression <|> g.classExpression <|> interface g <|> typeAlias g
    <|> namespaceBlock g
    <|> (do
      let start ← here
      keyword "declare"
      check !(← newlineAhead)
      let body ← (keyword "global" *> g.block) <|> g.statement
      return other start [body])

/-- The module of what is exported from another one. -/
def exportSource : Reader Unit := do
  keyword "from"
  discard stringLiteral
  discard (optionally (importAttributes g))

/-- Exported names, of this script or of another module. -/
def exportedNames : Reader Unit := do
  discard (optionally (keyword "type"))
  (do mark "*"
      discard (optionally (keyword "as" *> externalName))
      exportSource g)
    <|> (do
      mark "\x7b"
      discard (g.commaList (specifier .other))
      mark "\x7d"
      discard (optionally (exportSource g)))
  semicolon

/-- An expression as a statement, up to its end. -/
def expressionEnd : Reader Tree := do
  let e ← g.expression
  semicolon
  return e

/-- What follows the word `export` and its decorators. -/
def exportBody (start : Nat) : Reader Tree :=
  (do keyword "default"
      g.functionExpression <|> g.classExpression <|> interface g <|> expressionEnd g)
    <|> (do
      mark "="
      expressionEnd g)
    <|> (do
      keyword "as"
      keyword "namespace"
      discard word
      semicolon
      return other start [])
    <|> importAlias g
    <|> declaration g
    <|> (do
      exportedNames g
      return other start [])

def exportStatement : Reader Tree := do
  let start ← here
  let decorators ← g.many g.decorator
  keyword "export"
  let body ← exportBody g start
  return other start (decorators ++ [body])

def inParentheses : Reader Tree := do
  mark "("
  let e ← g.expression
  mark ")"
  return e

/-- What a loop over a range binds or assigns, and the range. -/
def ranging (target : Reader Tree) : Reader (List Tree) := do
  let t ← target
  (keyword "of" <|> keyword "in")
  let e ← g.expression
  mark ")"
  return [t, e]

/-- The head of a loop over a range, or of one with three parts. -/
def forHead : Reader (List Tree) := do
  mark "("
  ranging g (declarationKeyword *> g.pattern)
    <|> (do
      let first ← listOf (declarations g { endsAtIn := true }
        <|> g.rule (.expression { endsAtIn := true }))
      mark ";"
      let test ← listOf g.expression
      mark ";"
      let step ← listOf g.expression
      mark ")"
      return first ++ test ++ step)
    <|> ranging g (g.rule .unary)

def switchCase : Reader Tree := do
  let start ← here
  let test ← (keyword "case" *> listOf g.expression) <|> (keyword "default" *> pure [])
  mark ":"
  let ss ← g.many g.statement
  return other start (test ++ ss)

def ifStatement (start : Nat) : Reader Tree := do
  keyword "if"
  let test ← inParentheses g
  let yes ← g.statement
  let no ← listOf (keyword "else" *> g.statement)
  return other start (test :: yes :: no)

def forStatement (start : Nat) : Reader Tree := do
  keyword "for"
  discard (optionally (keyword "await"))
  let head ← forHead g
  let body ← g.statement
  return other start (head ++ [body])

/-- A statement under an expression in parentheses: a loop, or the scope of an object. -/
def guarded (w : String) (start : Nat) : Reader Tree := do
  keyword w
  let e ← inParentheses g
  let body ← g.statement
  return other start [e, body]

def doStatement (start : Nat) : Reader Tree := do
  keyword "do"
  let body ← g.statement
  keyword "while"
  let test ← inParentheses g
  discard (optionally (mark ";"))
  return other start [body, test]

/-- What is returned, if anything stands on the same line. -/
def returned : Reader (List Tree) := do
  if ← newlineAhead then pure [] else listOf g.expression

def returnStatement (start : Nat) : Reader Tree := do
  keyword "return"
  let e ← returned g
  semicolon
  return other start e

def throwStatement (start : Nat) : Reader Tree := do
  keyword "throw"
  let e ← expressionEnd g
  return other start [e]

/-- A jump, to a label on the same line if there is one. -/
def jump (start : Nat) : Reader Tree := do
  discard word
  discard (optionally (do check !(← newlineAhead); word))
  semicolon
  return other start []

def debuggerStatement (start : Nat) : Reader Tree := do
  keyword "debugger"
  semicolon
  return other start []

def switchStatement (start : Nat) : Reader Tree := do
  keyword "switch"
  let e ← inParentheses g
  mark "\x7b"
  let cases ← g.many (switchCase g)
  mark "\x7d"
  return other start (e :: cases)

/-- What a handler catches. -/
def caught : Reader Tree := do
  mark "("
  let p ← g.pattern
  let t ← g.typeAnnotation
  mark ")"
  return other p.start (p :: t)

def handler : Reader (List Tree) := do
  keyword "catch"
  let p ← listOf (caught g)
  let body ← g.block
  return p ++ [body]

def tryStatement (start : Nat) : Reader Tree := do
  keyword "try"
  let body ← g.block
  let handler ← handler g <|> pure []
  let final ← listOf (keyword "finally" *> g.block)
  return other start (body :: handler ++ final)

/-- A statement that begins with a keyword of its own. -/
def keywordStatement (start : Nat) (w : List Char) : Reader Tree :=
  match String.ofList w with
  | "if" => ifStatement g start
  | "for" => forStatement g start
  | "while" => guarded g "while" start
  | "do" => doStatement g start
  | "return" => returnStatement g start
  | "throw" => throwStatement g start
  | "break" | "continue" => jump start
  | "debugger" => debuggerStatement start
  | "with" => guarded g "with" start
  | "switch" => switchStatement g start
  | "try" => tryStatement g start
  | "import" => importStatement g <|> importAlias g
  | "export" => exportStatement g
  | _ => declaration g

def labeled : Reader Tree := do
  let name ← identifier
  mark ":"
  let s ← g.statement
  return other name.start [s]

def expressionStatement : Reader Tree := do
  let e ← expressionEnd g
  return other e.start [e]

/-- A statement, told by its first character or word. -/
def statementRule : Reader Tree := do
  let start ← here
  match (← get).rest with
  | '{' :: _ => g.block
  | ';' :: _ => do
    mark ";"
    return other start []
  | '@' :: _ => exportStatement g <|> g.classExpression
  | _ => keywordStatement g start (← wordAhead) <|> labeled g <|> expressionStatement g

end Localization.Script.Grammar
