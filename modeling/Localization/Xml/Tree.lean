import Localization.Xml.NameData

/-! Trees of marked-up text: elements with attributes, and the characters between their tags. Names
are kept without the qualifier that stands for their namespace, and a qualified attribute is left
out. -/

namespace Localization.Xml

/-- What stands between the tags of an element. -/
inductive Node where
  | text (cs : List Char)
  | element (name : List Char) (attributes : List (List Char × List Char)) (content : List Node)
  deriving Repr, Inhabited

structure Element where
  name : List Char
  attributes : List (List Char × List Char) := []
  content : List Node := []
  deriving Repr, Inhabited

mutual

/-- The characters of a node, tags left out. -/
def Node.chars : Node → List Char
  | .text cs => cs
  | .element _ _ content => Node.charsOf content

def Node.charsOf : List Node → List Char
  | [] => []
  | n :: ns => n.chars ++ Node.charsOf ns

end

namespace Element

def toNode (e : Element) : Node := .element e.name e.attributes e.content

/-- The characters of an element, tags left out. -/
def chars (e : Element) : List Char := Node.charsOf e.content

def attribute? (e : Element) (name : String) : Option (List Char) :=
  (e.attributes.find? fun a => a.1 == name.toList).map (·.2)

/-- The elements of a name directly inside an element, in order. -/
def children (e : Element) (name : String) : List Element :=
  e.content.filterMap fun
    | .element n attributes content =>
      if n = name.toList then some ⟨n, attributes, content⟩ else none
    | .text _ => none

/-- The first element of a name directly inside an element. -/
def child? (e : Element) (name : String) : Option Element := (e.children name).head?

end Element

end Localization.Xml
