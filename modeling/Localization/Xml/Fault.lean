import Localization.Text

/-! What is wrong with a document, and where. -/

namespace Localization.Xml

/-- What is wrong with a document. -/
inductive Problem where
  | invalidToken
  | unclosedToken
  | unclosedSection
  | noElement
  /-- A part of the document that cannot stand where it does. -/
  | misplaced
  | misplacedDeclaration
  | malformedDeclaration
  | junk
  | mismatchedTag
  | duplicateAttribute
  | invalidNumber
  | undefinedEntity
  /-- An entity that is declared elsewhere, if at all. -/
  | unknownEntity (name : List Char)
  | recursiveEntity
  | asynchronousEntity
  | unparsedEntity
  | externalEntity
  | parameterReference
  | publicId
  | unboundPrefix
  | undeclaredPrefix
  | reservedXml
  | reservedXmlns
  | reservedNamespace
  deriving DecidableEq, Repr

def Problem.message : Problem → List Char
  | .invalidToken => "not well-formed (invalid token)".toList
  | .unclosedToken => "unclosed token".toList
  | .unclosedSection => "unclosed CDATA section".toList
  | .noElement => "no element found".toList
  | .misplaced => "syntax error".toList
  | .misplacedDeclaration => "XML or text declaration not at start of entity".toList
  | .malformedDeclaration => "XML declaration not well-formed".toList
  | .junk => "junk after document element".toList
  | .mismatchedTag => "mismatched tag".toList
  | .duplicateAttribute => "duplicate attribute".toList
  | .invalidNumber => "reference to invalid character number".toList
  | .undefinedEntity => "undefined entity".toList
  | .unknownEntity name => "undefined entity &".toList ++ name ++ [';']
  | .recursiveEntity => "recursive entity reference".toList
  | .asynchronousEntity => "asynchronous entity".toList
  | .unparsedEntity => "reference to binary entity".toList
  | .externalEntity => "reference to external entity in attribute".toList
  | .parameterReference => "illegal parameter entity reference".toList
  | .publicId => "illegal character(s) in public id".toList
  | .unboundPrefix => "unbound prefix".toList
  | .undeclaredPrefix => "must not undeclare prefix".toList
  | .reservedXml =>
    "reserved prefix (xml) must not be undeclared or bound to another namespace name".toList
  | .reservedXmlns => "reserved prefix (xmlns) must not be declared or undeclared".toList
  | .reservedNamespace => "prefix must not be bound to one of the reserved namespace names".toList

/-- A problem with the number of characters that are left where it shows. -/
structure Fault where
  problem : Problem
  left : Nat
  deriving DecidableEq, Repr

/-- A place in a text: a line, counted from 1, and the characters before it on the line. -/
structure Place where
  line : Nat
  column : Nat
  deriving DecidableEq, Repr

/-- The place after characters. A line ends with CR, LF or both in this order. -/
def placeAfter (line column : Nat) : List Char → Place
  | [] => ⟨line, column⟩
  | '\r' :: '\n' :: cs => placeAfter (line + 1) 0 cs
  | '\r' :: cs => placeAfter (line + 1) 0 cs
  | '\n' :: cs => placeAfter (line + 1) 0 cs
  | _ :: cs => placeAfter line (column + 1) cs

/-- What a fault in a document reads as. -/
def Fault.message (document : List Char) (f : Fault) : List Char :=
  let p := placeAfter 1 0 (document.take (document.length - f.left))
  f.problem.message ++ ": line ".toList ++ (toString p.line).toList ++ ", column ".toList ++
    (toString p.column).toList

end Localization.Xml
