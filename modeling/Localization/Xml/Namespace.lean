import Localization.Xml.Declarations

/-! Namespaces: attributes that bind a qualifier of names, and the names that such qualifiers
allow. -/

namespace Localization.Xml

/-- Namespaces in scope, the innermost first; without a qualifier, of plain element names. -/
abbrev Bindings := List (Option (List Char) × List Char)

namespace Namespace

def xml : List Char := "http://www.w3.org/XML/1998/namespace".toList
def xmlns : List Char := "http://www.w3.org/2000/xmlns/".toList

/-- The prefix that is bound without a declaration. -/
def standard : Bindings := [(some "xml".toList, xml)]

/-- What an attribute binds, if it binds a namespace. -/
def bound? (n : Name) : Option (Option (List Char)) :=
  if n.qualifier = some "xmlns".toList then some (some n.base)
  else if n.qualifier = none && n.base = "xmlns".toList then some none
  else none

/-- Binds a prefix, or the default namespace, to a name. -/
def bind (bs : Bindings) (qualifier : Option (List Char)) (uri : List Char) :
    Except Problem Bindings :=
  if uri.isEmpty && qualifier.isSome then .error .undeclaredPrefix
  else if qualifier = some "xmlns".toList then .error .reservedXmlns
  else if uri.contains '}' then .error .misplaced
  else if qualifier = some "xml".toList && uri ≠ xml then .error .reservedXml
  else if qualifier ≠ some "xml".toList && (uri = xml || uri = xmlns) then .error .reservedNamespace
  else .ok ((qualifier, uri) :: bs)

def find? (bs : Bindings) (qualifier : List Char) : Option (List Char) :=
  (bs.find? fun b => b.1 = some qualifier).map (·.2)

end Namespace

/-- Attributes read so far: the names written, the namespaces bound, and the attributes by kind. -/
structure Gathered where
  names : List Name := []
  bindings : Bindings
  plain : List (List Char × List Char) := []
  qualified : List (List Char × List Char) := []

namespace Gathered

def add (g : Gathered) (n : Name) (value : List Char) : Except Problem Gathered :=
  let g := { g with names := n :: g.names }
  match Namespace.bound? n with
  | some qualifier =>
    match Namespace.bind g.bindings qualifier value with
    | .ok bindings => .ok { g with bindings }
    | .error e => .error e
  | none =>
    match n.qualifier with
    | some q => .ok { g with qualified := g.qualified ++ [(q, n.base)] }
    | none => .ok { g with plain := g.plain ++ [(n.base, value)] }

/-- The written attributes of an element in order. -/
def addWritten (d : Declarations) (element : List Char) (start : Nat) :
    Gathered → List WrittenAttribute → Except Fault Gathered
  | g, [] => .ok g
  | g, a :: rest =>
    if g.names.contains a.name then .error ⟨.duplicateAttribute, a.left⟩
    else
      match attributeValue d (d.isTokens element a.name) a.leftAfter a.value with
      | .error f => .error (f.at start)
      | .ok value =>
        match g.add a.name value with
        | .error e => .error ⟨e, start⟩
        | .ok g => addWritten d element start g rest

/-- Adds attributes that are not written and have a declared value. -/
def addDeclared : Gathered → List AttributeRule → Except Problem Gathered
  | g, [] => .ok g
  | g, r :: rest =>
    match r.standard with
    | some value =>
      if g.names.contains r.name then addDeclared g rest
      else
        match g.add r.name value with
        | .error e => .error e
        | .ok g => addDeclared g rest
    | none => addDeclared g rest

/-- Whether qualified attributes have namespaces, and no two of them the same name in one. -/
def checkQualified (bs : Bindings) (seen : List (List Char × List Char)) :
    List (List Char × List Char) → Except Problem Unit
  | [] => .ok ()
  | (q, base) :: rest =>
    match Namespace.find? bs q with
    | none => .error .unboundPrefix
    | some uri =>
      if seen.contains (uri, base) then .error .duplicateAttribute
      else checkQualified bs ((uri, base) :: seen) rest

end Gathered

end Localization.Xml
