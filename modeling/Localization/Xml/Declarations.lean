import Localization.Text.Replace
import Localization.Xml.Token

/-! What a document declares about itself: entities, and attributes of elements. Values of
attributes are read with these declarations: references are replaced, and blanks become spaces. -/

namespace Localization.Xml

/-- What an entity stands for. -/
inductive EntityBody where
  | internal (text : List Char)
  | external
  | unparsed
  deriving DecidableEq, Repr

/-- A declared attribute: where it belongs, whether its value consists of tokens, and the value that
it has when it is not written. -/
structure AttributeRule where
  element : List Char
  name : Name
  isTokens : Bool
  standard : Option (List Char)
  deriving DecidableEq, Repr

/-- What the document type declares. -/
structure Declarations where
  entities : List (List Char × EntityBody) := []
  attributes : List AttributeRule := []
  standsAlone : Bool := false
  refersElsewhere : Bool := false
  /-- Declarations no longer count, since a part that stands elsewhere is not known. -/
  ignoresMore : Bool := false
  deriving Repr

namespace Declarations

/-- Whether an entity that is not declared may be declared elsewhere. -/
def isOpen (d : Declarations) : Bool := d.refersElsewhere && !d.standsAlone

def entity? (d : Declarations) (name : List Char) : Option EntityBody :=
  (d.entities.find? fun e => e.1 = name).map (·.2)

/-- Declares an entity. The first declaration of a name counts, and the standard ones stay. -/
def addEntity (d : Declarations) (name : List Char) (body : EntityBody) : Declarations :=
  if d.ignoresMore || (standardEntity? name).isSome || (d.entity? name).isSome then d
  else { d with entities := d.entities ++ [(name, body)] }

def rulesOf (d : Declarations) (element : List Char) : List AttributeRule :=
  d.attributes.filter fun r => r.element = element

/-- Declares an attribute. The first declaration of a name counts. -/
def addAttribute (d : Declarations) (r : AttributeRule) : Declarations :=
  if d.ignoresMore || (d.rulesOf r.element).any fun s => s.name = r.name then d
  else { d with attributes := d.attributes ++ [r] }

/-- Whether the value of an attribute consists of tokens. -/
def isTokens (d : Declarations) (element : List Char) (name : Name) : Bool :=
  match (d.rulesOf element).find? fun r => r.name = name with
  | some r => r.isTokens
  | none => false

end Declarations

/-- What is wrong with a value, and where; without a place, it shows at the start of what holds the
value. -/
structure ValueFault where
  problem : Problem
  left : Option Nat := none
  deriving Repr

def ValueFault.at (start : Nat) (f : ValueFault) : Fault := ⟨f.problem, f.left.getD start⟩

/-- A value with references replaced and blanks made spaces. `expand` gives the text of an entity,
and `after` characters follow the value. -/
def valueWith (expand : List Char → Except ValueFault (List Char)) (after : Nat) :
    (fuel : Nat) → List Char → Except ValueFault (List Char)
  | 0, _ => .ok []
  | fuel + 1, cs =>
    match cs with
    | [] => .ok []
    | '<' :: _ => .error ⟨.invalidToken, some (cs.length + after)⟩
    | '&' :: rest =>
      match scanReference rest with
      | .error (.invalid left) => .error ⟨.invalidToken, some (left + after)⟩
      | .error .unfinished => .error ⟨.invalidToken, some (cs.length + after)⟩
      | .ok (.number n, more) =>
        match numbered? n with
        | some c => (valueWith expand after fuel more).map (c :: ·)
        | none => .error ⟨.invalidNumber, some (cs.length + after)⟩
      | .ok (.entity name, more) =>
        match standardEntity? name with
        | some c => (valueWith expand after fuel more).map (c :: ·)
        | none =>
          match expand name with
          | .ok text => (valueWith expand after fuel more).map (text ++ ·)
          | .error f =>
            .error ⟨f.problem, if f.left.isSome then some (cs.length + after) else none⟩
    | '\r' :: '\n' :: rest => (valueWith expand after fuel rest).map (' ' :: ·)
    | c :: rest => (valueWith expand after fuel rest).map ((if isBlank c then ' ' else c) :: ·)

/-- The text of an entity inside a value. A fault with a place is one of the reference itself. -/
def expandInValue (d : Declarations) :
    (depth : Nat) → (opened : List (List Char)) → List Char → Except ValueFault (List Char)
  | 0, _, _ => .error ⟨.recursiveEntity, some 0⟩
  | depth + 1, opened, name =>
    match d.entity? name with
    | none => if d.isOpen then .ok [] else .error ⟨.undefinedEntity, none⟩
    | some body =>
      if opened.contains name then .error ⟨.recursiveEntity, some 0⟩
      else
        match body with
        | .unparsed => .error ⟨.unparsedEntity, some 0⟩
        | .external => .error ⟨.externalEntity, some 0⟩
        | .internal text =>
          (valueWith (expandInValue d depth (name :: opened)) 0 (text.length + 1) text).mapError
            fun f => ⟨f.problem, none⟩

/-- The tokens of a value with one blank between them. -/
def tokensOf (cs : List Char) : List Char :=
  [' '].intercalate ((splitAt [' '] cs).filter fun token => !token.isEmpty)

/-- The value of an attribute from the characters between its quotes, with `after` characters from
the closing quote on. -/
def attributeValue (d : Declarations) (isTokens : Bool) (after : Nat) (cs : List Char) :
    Except ValueFault (List Char) :=
  (valueWith (expandInValue d (d.entities.length + 1) []) after (cs.length + 1) cs).map fun v =>
    if isTokens then tokensOf v else v

end Localization.Xml
