import Localization.Markup.Token

/-! The elements of hypertext. An element ends where its closing tag stands or where one around it
ends; a closing tag without an element is passed over. -/

namespace Localization.Markup

/-- An element, a text, or a remark, of which only the place matters. -/
inductive Node where
  | text (t : Text)
  | remark
  | element (name : Text) (attributes : List Attribute) (children : List Node)

namespace Node

/-- Elements that hold nothing and need no closing tag. -/
def voidNames : List String :=
  ["area", "base", "br", "col", "embed", "hr", "img", "input", "keygen", "link", "menuitem", "meta",
   "param", "source", "track", "wbr", "basefont", "bgsound", "command", "frame", "image", "isindex",
   "nextid", "spacer"]

/-- Whether a name is one of some. -/
def isOneOf (names : List String) (name : Text) : Bool :=
  names.any fun n => Text.ofString n == name

/-- An element that is not closed yet, with its children so far, the last one first. -/
structure Open where
  name : Text
  attributes : List Attribute
  children : List Node

/-- How far the nodes of hypertext have been built. -/
structure Progress where
  elements : List Open := []
  /-- What stands outside of them, the last one first. -/
  top : List Node := []
  waiting : Text := []
  /-- Void elements for which a closing tag may still come. -/
  closed : List Text := []

namespace Progress

/-- Puts a node into the innermost element that is open. -/
def push (node : Node) (p : Progress) : Progress :=
  match p.elements with
  | e :: es => { p with elements := { e with children := node :: e.children } :: es }
  | [] => { p with top := node :: p.top }

/-- Whether a code point is a space, a tab or part of a line end. -/
def isSpace : CodePoint → Bool := CodePoint.isOf [' ', '\n', '\t', '\x0c', '\r'].contains

/-- Text as a node. Where spaces do not count, spaces alone are one space or one line end. -/
def textNode (p : Progress) (t : Text) : Node :=
  let kept := p.elements.any fun e => isOneOf ["pre", "textarea"] e.name
  let space : CodePoint := if t.contains (.char '\n') then .char '\n' else .char ' '
  .text (if kept || !t.all isSpace then t else [space])

/-- Ends the text before a tag or a remark. -/
def flush (p : Progress) : Progress :=
  if p.waiting.isEmpty then p else { p.push (p.textNode p.waiting) with waiting := [] }

/-- Closes the innermost element. -/
def pop (p : Progress) : Progress :=
  match p.elements with
  | e :: es => { p with elements := es }.push (.element e.name e.attributes e.children.reverse)
  | [] => p

/-- Closes some of the innermost elements. -/
def popAll : Nat → Progress → Progress
  | 0, p => p
  | n + 1, p => popAll n p.pop

/-- Closes an element of some name, and all inside it. -/
def close (name : Text) (p : Progress) : Progress :=
  let inside := (p.elements.takeWhile fun e => e.name ≠ name).length
  if inside < p.elements.length then p.popAll (inside + 1) else p

/-- A closing tag. One for a void element that has ended counts once. -/
def closing (name : Text) (p : Progress) : Progress :=
  if p.closed.contains name then { p with closed := p.closed.erase name }
  else p.flush.close name

/-- Attributes without repeated names. The last value counts, at the place of the first. -/
def unique (attributes : List Attribute) : List Attribute :=
  attributes.foldl (fun known (name, value) =>
    if known.any (·.1 == name) then known.map fun e => if e.1 = name then (name, value) else e
    else known ++ [(name, value)]) []

/-- What a token does. -/
def step (p : Progress) : Token → Progress
  | .text t => { p with waiting := p.waiting ++ t }
  | .remark => p.flush.push .remark
  | .inserted t => p.flush.push (p.textNode t)
  | .closing name => p.closing name
  | .opening name attributes closed =>
    let p := p.flush
    let e := { name, attributes := unique attributes, children := [] }
    let p := { p with elements := e :: p.elements }
    if closed then p.closing name
    else if isOneOf voidNames name then { p.close name with closed := name :: p.closed }
    else p

end Progress

/-- The nodes that tokens make up. -/
def ofTokens (tokens : List Token) : List Node :=
  let p := (tokens.foldl Progress.step {}).flush
  (p.popAll p.elements.length).top.reverse

/-- The nodes of hypertext. -/
def ofText (t : Text) : List Node := ofTokens (Token.ofText t)

/-- The name of an element. -/
def name? : Node → Option Text
  | .element name _ _ => some name
  | _ => none

/-- Whether a node is an element of one of these names. -/
def hasName (names : List String) (n : Node) : Bool := n.name?.any (isOneOf names)

/-- The value of an attribute. -/
def attribute? (name : String) (attributes : List Attribute) : Option Text :=
  attributes.lookup (Text.ofString name)

mutual

/-- The elements in a node that have one of these names: their names and attributes. -/
def found (names : List String) : Node → List (Text × List Attribute)
  | .element name attributes children =>
    (if isOneOf names name then [(name, attributes)] else []) ++ foundAll names children
  | _ => []

/-- The same in nodes one after another. -/
def foundAll (names : List String) : List Node → List (Text × List Attribute)
  | [] => []
  | n :: ns => found names n ++ foundAll names ns

end

end Node

end Localization.Markup
