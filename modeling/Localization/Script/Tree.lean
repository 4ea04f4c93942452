/-! Syntax trees of scripts, as far as anything looks at them: names, literals, calls, bindings and
markup attributes have kinds of their own, and every other construct is an `other` node that holds
its parts in source order. Offsets count characters from the start of the script. -/

namespace Localization.Script

inductive Kind where
  | identifier
  /-- A name after a dot or before a colon, or the name of a markup attribute. -/
  | propertyName
  | number
  /-- A run of characters inside a string that holds no escape sequence. -/
  | fragment
  | escape
  /-- The characters of a template between two substitutions. -/
  | chunk
  /-- The characters of a substitution, from its dollar sign to its closing brace. -/
  | source
  | comment
  | string
  | template
  | substitution
  | object
  | pair
  | array
  /-- Holds a callee, then arguments or the template of a tagged call. -/
  | call
  | member
  | arguments
  /-- Holds a pattern, then its initial value if there is one. -/
  | declarator
  /-- Holds its members, shorthand properties and pairs among them. -/
  | objectPattern
  | shorthandProperty
  | pairPattern
  | assignment
  /-- Holds the bindings of its clause, then the module name. -/
  | importStatement
  | namespaceImport
  /-- Holds the imported name, then its local name if it is renamed. -/
  | importSpecifier
  /-- Holds a name, then a value if there is one. -/
  | markupAttribute
  /-- An expression in braces as the value of a markup attribute or as content. -/
  | markupExpression
  | other
  deriving DecidableEq, Repr

/-- A syntax tree. A leaf carries its characters. -/
inductive Tree where
  | leaf (kind : Kind) (start : Nat) (text : List Char)
  | node (kind : Kind) (start : Nat) (children : List Tree)
  deriving Repr

namespace Tree

def kind : Tree → Kind
  | .leaf k _ _ => k
  | .node k _ _ => k

/-- The offset of the first character of a tree. -/
def start : Tree → Nat
  | .leaf _ s _ => s
  | .node _ s _ => s

def children : Tree → List Tree
  | .leaf _ _ _ => []
  | .node _ _ cs => cs

/-- The characters of the leaves directly below a node, or of a leaf. -/
def text : Tree → List Char
  | .leaf _ _ t => t
  | .node _ _ cs => cs.flatMap fun
    | .leaf _ _ t => t
    | .node .substitution _ (.leaf .source _ t :: _) => t
    | .node _ _ _ => []

mutual

/-- A tree and everything below it, a node before its children. -/
def subtrees : Tree → List Tree
  | .leaf k s t => [.leaf k s t]
  | .node k s cs => .node k s cs :: subtreesOf cs

def subtreesOf : List Tree → List Tree
  | [] => []
  | t :: ts => subtrees t ++ subtreesOf ts

end

end Tree

end Localization.Script
