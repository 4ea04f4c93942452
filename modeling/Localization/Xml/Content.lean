import Localization.Xml.Namespace
import Localization.Xml.Tree

/-! What stands between the tags of the first element. Elements that are open form a stack; a tag
that closes the innermost one puts it into the one around it. -/

namespace Localization.Xml

/-- An element that is open, with what it holds so far, backwards. -/
structure OpenElement where
  written : List Char
  name : List Char
  attributes : List (List Char × List Char) := []
  bindings : Bindings
  content : List Node := []

namespace OpenElement

/-- The element once its closing tag is read. -/
def close (e : OpenElement) : Element := ⟨e.name, e.attributes, e.content.reverse⟩

def push (e : OpenElement) (n : Node) : OpenElement := { e with content := n :: e.content }

/-- The element that a tag opens, with `start` characters left from the tag on. -/
def ofTag (d : Declarations) (around : Bindings) (start : Nat) (tag : OpeningTag) :
    Except Fault OpenElement := do
  let written := tag.name.written
  let placed {α : Type} (r : Except Problem α) : Except Fault α := r.mapError (⟨·, start⟩)
  let g ← Gathered.addWritten d written start { bindings := around } tag.attributes
  let g ← placed (g.addDeclared (d.rulesOf written))
  placed (Gathered.checkQualified g.bindings [] g.qualified)
  match tag.name.qualifier with
  | some q =>
    if (Namespace.find? g.bindings q).isNone then .error ⟨.unboundPrefix, start⟩ else pure ()
  | none => pure ()
  return { written, name := tag.name.base, attributes := g.plain, bindings := g.bindings }

end OpenElement

namespace Content

/-- The rest of a section of plain characters. Every line end becomes one LF. -/
def section_ : List Char → Except Fault (Scanned (List Char))
  | [] => .error ⟨.unclosedSection, 0⟩
  | ']' :: ']' :: '>' :: cs => .ok ([], cs)
  | [']', ']'] => .error ⟨.unclosedSection, 2⟩
  | [']'] => .error ⟨.unclosedSection, 1⟩
  | ['\r'] => .error ⟨.unclosedSection, 1⟩
  | '\r' :: '\n' :: cs => (section_ cs).map fun r => ('\n' :: r.1, r.2)
  | '\r' :: cs => (section_ cs).map fun r => ('\n' :: r.1, r.2)
  | c :: cs =>
    if isLegal c then (section_ cs).map fun r => (c :: r.1, r.2)
    else .error ⟨.invalidToken, (c :: cs).length⟩

/-- A character of content that stands for itself. -/
def isPlain (c : Char) : Bool := isLegal c && c != '<' && c != '&' && c != ']' && c != '\r'

/-- Where content ends: with the element around it, or, in the text of an entity, with the text. -/
inductive Extent where
  | element
  | entity
  deriving DecidableEq

/-- The token at the beginning of `cs`, of which all characters but those given back are taken. -/
inductive Token where
  | opening (tag : OpeningTag)
  | closing (name : List Char) (left : Nat)
  | chars (cs : List Char)
  | entity (name : List Char)
  | nothing

/-- The next part of content: a tag, characters, a reference to an entity or nothing. -/
def token (cs : List Char) : Except Fault (Scanned Token) :=
  let scanned {α : Type} (r : Except TokenError α) : Except Fault α :=
    r.mapError (TokenError.fault cs.length)
  match cs with
  | '<' :: '/' :: rest =>
    (scanned (scanClosingTag rest)).map fun r => (.closing r.1 rest.length, r.2)
  | '<' :: '!' :: '-' :: '-' :: rest => (scanned (scanComment rest)).map fun r => (.nothing, r.2)
  | '<' :: '!' :: '-' :: rest => scanned (.error (stopAt rest))
  | '<' :: '!' :: '[' :: rest => do
    let (_, rest) ← scanned (scanSectionOpen rest)
    (section_ rest).map fun r => (.chars r.1, r.2)
  | '<' :: '!' :: rest => scanned (.error (stopAt rest))
  | '<' :: '?' :: rest => do
    let (isDeclaration, rest) ← scanned (scanInstruction rest)
    if isDeclaration then .error ⟨.misplacedDeclaration, cs.length⟩ else .ok (.nothing, rest)
  | '<' :: rest => (scanned (scanOpeningTag rest)).map fun r => (.opening r.1, r.2)
  | '&' :: rest => do
    match ← scanned (scanReference rest) with
    | (.number n, rest) =>
      match numbered? n with
      | some c => .ok (.chars [c], rest)
      | none => .error ⟨.invalidNumber, cs.length⟩
    | (.entity name, rest) =>
      match standardEntity? name with
      | some c => .ok (.chars [c], rest)
      | none => .ok (.entity name, rest)
  | ']' :: ']' :: '>' :: rest => .error ⟨.invalidToken, rest.length + 1⟩
  | ']' :: rest => .ok (.chars [']'], rest)
  | '\r' :: '\n' :: rest => .ok (.chars ['\n'], rest)
  | '\r' :: rest => .ok (.chars ['\n'], rest)
  | cs =>
    let (plain, rest) := cs.span isPlain
    if plain.isEmpty then .error ⟨.invalidToken, cs.length⟩ else .ok (.chars plain, rest)

/-- Content up to the end of its extent. `inner` is the innermost open element, `outer` are those
around it, and `expand` gives the nodes of an entity. -/
def runWith (d : Declarations) (expand : Bindings → List Char → Except Problem (List Node))
    (extent : Extent) :
    (fuel : Nat) → OpenElement → List OpenElement → List Char → Except Fault (Scanned Element)
  | 0, _, _, cs => .error ⟨.noElement, cs.length⟩
  | _ + 1, inner, outer, [] =>
    match extent with
    | .element => .error ⟨.noElement, 0⟩
    | .entity => if outer.isEmpty then .ok (inner.close, []) else .error ⟨.asynchronousEntity, 0⟩
  | fuel + 1, inner, outer, cs =>
    if cs = ['\r'] && extent = .element then .error ⟨.noElement, 1⟩
    else match token cs with
    | .error f => .error f
    | .ok (.nothing, rest) => runWith d expand extent fuel inner outer rest
    | .ok (.chars plain, rest) => runWith d expand extent fuel (inner.push (.text plain)) outer rest
    | .ok (.entity name, rest) =>
      match expand inner.bindings name with
      | .ok nodes =>
        runWith d expand extent fuel { inner with content := nodes.reverse ++ inner.content } outer
          rest
      | .error problem => .error ⟨problem, cs.length⟩
    | .ok (.opening tag, rest) =>
      match OpenElement.ofTag d inner.bindings cs.length tag with
      | .error f => .error f
      | .ok e =>
        if tag.isEmpty then
          runWith d expand extent fuel (inner.push e.close.toNode) outer rest
        else runWith d expand extent fuel e (inner :: outer) rest
    | .ok (.closing name left, rest) =>
      match outer with
      | [] =>
        if extent = .entity then .error ⟨.asynchronousEntity, cs.length⟩
        else if name = inner.written then .ok (inner.close, rest)
        else .error ⟨.mismatchedTag, left⟩
      | o :: outer =>
        if name = inner.written then
          runWith d expand extent fuel (o.push inner.close.toNode) outer rest
        else .error ⟨.mismatchedTag, left⟩

/-- The nodes of an entity, in which entities are opened at most `depth` deep. -/
def expandIn (d : Declarations) :
    (depth : Nat) → (opened : List (List Char)) → Bindings → List Char → Except Problem (List Node)
  | 0, _, _, _ => .error .recursiveEntity
  | depth + 1, opened, bs, name =>
    match d.entity? name with
    | none => .error (if d.isOpen then .unknownEntity name else .undefinedEntity)
    | some body =>
      if opened.contains name then .error .recursiveEntity
      else
        match body with
        | .unparsed => .error .unparsedEntity
        | .external => .error (.unknownEntity name)
        | .internal text =>
          match runWith d (expandIn d depth (name :: opened)) .entity (text.length + 1)
              { written := [], name := [], bindings := bs } [] text with
          | .ok (e, _) => .ok e.content
          | .error f => .error f.problem

/-- The element whose opening tag a text begins with, and what follows it. -/
def element (d : Declarations) (cs : List Char) : Except Fault (Scanned Element) :=
  match token cs with
  | .error f => .error f
  | .ok (.opening tag, rest) =>
    match OpenElement.ofTag d Namespace.standard cs.length tag with
    | .error f => .error f
    | .ok e =>
      if tag.isEmpty then .ok (e.close, rest)
      else runWith d (expandIn d (d.entities.length + 1) []) .element (cs.length + 1) e [] rest
  | .ok _ => .error ⟨.noElement, cs.length⟩

end Content

end Localization.Xml
