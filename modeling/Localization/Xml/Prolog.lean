import Localization.Xml.Declaration
import Localization.Xml.Declarations
import Localization.Xml.Lexeme

/-! What stands before the first element of a document: a declaration of the document itself,
comments, instructions, and the document type with its declarations. Lexemes are read one after the
other; a state says which of them may come next. -/

namespace Localization.Xml

/-- What a declared entity is for: general text under a name, or declarations. -/
abbrev EntityTarget := Option (List Char)

/-- What may come next before the first element. -/
inductive Expecting where
  | start
  | beforeType
  | afterType
  | typeName
  /-- An identifier, the declarations in brackets, or the end of the document type. -/
  | typeBody
  | typePublic
  | typeSystem
  | typeTail
  | typeEnd
  /-- A declaration, or the bracket that ends them. -/
  | subset
  | entityName
  | parameterName
  | entityBody (target : EntityTarget)
  | entityPublic (target : EntityTarget)
  | entitySystem (target : EntityTarget)
  | entityTail (target : EntityTarget)
  | entityFormat (target : EntityTarget)
  | notationName
  | notationBody
  | notationPublic
  | notationSystem
  | notationTail
  | attributesOf
  | attributeName (element : List Char)
  | attributeType (element : List Char) (name : Name)
  | choice (element : List Char) (name : Name) (amongNotations : Bool)
  | choiceNext (element : List Char) (name : Name) (amongNotations : Bool)
  | choicesOpen (element : List Char) (name : Name)
  | attributeStandard (element : List Char) (name : Name) (isTokens : Bool)
  | attributeFixed (element : List Char) (name : Name) (isTokens : Bool)
  | elementName
  | elementModel
  | modelFirst
  | mixedNext
  | mixedName
  | mixedAfter
  /-- A member of a content model, with the separators of the open groups. -/
  | modelItem (groups : List (Option Char))
  | modelNext (groups : List (Option Char))
  | closing
  deriving Repr

namespace Prolog

/-- The text that an entity stands for: numbered characters are replaced, and every line end becomes
one LF. `after` characters follow the text. -/
def entityText (after : Nat) : (fuel : Nat) → List Char → Except Fault (List Char)
  | 0, _ => .ok []
  | fuel + 1, cs =>
    match cs with
    | [] => .ok []
    | '&' :: rest =>
      match scanReference rest with
      | .error (.invalid left) => .error ⟨.invalidToken, left + after⟩
      | .error .unfinished => .error ⟨.invalidToken, cs.length + after⟩
      | .ok (.number n, more) =>
        match numbered? n with
        | some c => (entityText after fuel more).map (c :: ·)
        | none => .error ⟨.invalidNumber, cs.length + after⟩
      | .ok (.entity name, more) =>
        (entityText after fuel more).map fun r => '&' :: name ++ ';' :: r
    | '%' :: rest =>
      match Lexeme.scanPercent rest with
      | .error (.invalid left) => .error ⟨.invalidToken, left + after⟩
      | .error .unfinished => .error ⟨.invalidToken, cs.length + after⟩
      | .ok (.parameter, _) => .error ⟨.parameterReference, cs.length + after⟩
      | .ok (_, more) => .error ⟨.invalidToken, more.length + after⟩
    | '\r' :: '\n' :: rest => (entityText after fuel rest).map ('\n' :: ·)
    | '\r' :: rest => (entityText after fuel rest).map ('\n' :: ·)
    | c :: rest => (entityText after fuel rest).map (c :: ·)

/-- The first character of an identifier that it may not hold, with what follows it. -/
def badInId : List Char → Option (List Char)
  | [] => none
  | c :: cs =>
    let signs := " \r\n-'()+,./:=?;!*#@$_%".toList
    if c.isAlphanum || signs.contains c then badInId cs else some (c :: cs)

/-- Goes on after an identifier, unless it holds a character that it may not hold. -/
def publicId (p : Placed) (value : List Char) (next : Expecting) : Except Fault Expecting :=
  match badInId value with
  | some rest => .error ⟨.publicId, rest.length + p.after + 1⟩
  | none => .ok next

/-- Declares an entity, unless it is one that only counts inside of declarations. -/
def declare (d : Declarations) (target : EntityTarget) (body : EntityBody) : Declarations :=
  match target with
  | some name => d.addEntity name body
  | none => d

/-- The kinds of attributes whose values consist of tokens. -/
def tokenTypes : List String :=
  ["ID", "IDREF", "IDREFS", "ENTITY", "ENTITIES", "NMTOKEN", "NMTOKENS"]

/-- The value that an attribute has when it is not written. -/
def declareAttribute (d : Declarations) (p : Placed) (r : AttributeRule) (value : List Char) :
    Except Fault Declarations :=
  if d.ignoresMore then .ok d
  else
    match attributeValue d r.isTokens (p.after + 1) value with
    | .ok v => .ok (d.addAttribute { r with standard := some v })
    | .error f => .error (f.at p.left)

def nameOf? : Lexeme → Option Name
  | .name n => some ⟨none, n⟩
  | .qualified n => some n
  | _ => none

/-- A separator in the innermost group, which has one kind of separator. -/
def separated (sign : Char) : List (Option Char) → Option (List (Option Char))
  | some c :: groups => if c = sign then some (some c :: groups) else none
  | none :: groups => some (some sign :: groups)
  | [] => none

/-- What comes after a group of a content model is closed. -/
def closed (groups : List (Option Char)) : Expecting :=
  match groups.drop 1 with
  | [] => .closing
  | outer => .modelNext outer

/-- The problem of a lexeme that may not come next. -/
def misplaced (p : Placed) : Fault :=
  match p.lexeme with
  | .parameter => ⟨.parameterReference, p.left⟩
  | .xmlDeclaration _ => ⟨.misplacedDeclaration, p.left⟩
  | _ => ⟨.misplaced, p.left⟩

/-- The step to declarations of a document type. -/
def stepType (d : Declarations) (e : Expecting) (p : Placed) :
    Except Fault (Declarations × Expecting) :=
  let bad := .error (misplaced p)
  match e, p.lexeme with
  | .typeName, .name _ => .ok (d, .typeBody)
  | .typeName, .qualified _ => .ok (d, .typeBody)
  | .typeBody, .openBracket => .ok (d, .subset)
  | .typeBody, .close => .ok (d, .afterType)
  | .typeBody, .name n =>
    if n = "SYSTEM".toList then .ok (d, .typeSystem)
    else if n = "PUBLIC".toList then .ok (d, .typePublic)
    else bad
  | .typePublic, .literal v => (publicId p v .typeSystem).map (d, ·)
  | .typeSystem, .literal _ => .ok ({ d with refersElsewhere := true }, .typeTail)
  | .typeTail, .openBracket => .ok (d, .subset)
  | .typeTail, .close => .ok (d, .afterType)
  | .typeEnd, .close => .ok (d, .afterType)
  | .subset, .comment => .ok (d, .subset)
  | .subset, .instruction => .ok (d, .subset)
  | .subset, .parameter =>
    .ok ({ d with refersElsewhere := true, ignoresMore := !d.standsAlone }, .subset)
  | .subset, .closeBracket => .ok (d, .typeEnd)
  | .subset, .declaration key =>
    match String.ofList key with
    | "ENTITY" => .ok (d, .entityName)
    | "ATTLIST" => .ok (d, .attributesOf)
    | "ELEMENT" => .ok (d, .elementName)
    | "NOTATION" => .ok (d, .notationName)
    | _ => bad
  | .closing, .close => .ok (d, .subset)
  | _, _ => bad

/-- The step in the declaration of an entity or a notation. -/
def stepEntity (d : Declarations) (e : Expecting) (p : Placed) :
    Except Fault (Declarations × Expecting) :=
  let bad := .error (misplaced p)
  match e, p.lexeme with
  | .entityName, .percent => .ok (d, .parameterName)
  | .entityName, .name n => .ok (d, .entityBody (some n))
  | .parameterName, .name _ => .ok (d, .entityBody none)
  | .entityBody t, .name n =>
    if n = "SYSTEM".toList then .ok (d, .entitySystem t)
    else if n = "PUBLIC".toList then .ok (d, .entityPublic t)
    else bad
  | .entityBody t, .literal v =>
    if d.ignoresMore then .ok (d, .closing)
    else
      (entityText (p.after + 1) (v.length + 1) v).map fun text =>
        (declare d t (.internal text), .closing)
  | .entityPublic t, .literal v => (publicId p v (.entitySystem t)).map (d, ·)
  | .entitySystem t, .literal _ => .ok (d, .entityTail t)
  | .entityTail t, .close => .ok (declare d t .external, .subset)
  | .entityTail (some n), .name key =>
    if key = "NDATA".toList then .ok (d, .entityFormat (some n)) else bad
  | .entityFormat t, .name _ => .ok (declare d t .unparsed, .closing)
  | .notationName, .name _ => .ok (d, .notationBody)
  | .notationBody, .name n =>
    if n = "SYSTEM".toList then .ok (d, .notationSystem)
    else if n = "PUBLIC".toList then .ok (d, .notationPublic)
    else bad
  | .notationPublic, .literal v => (publicId p v .notationTail).map (d, ·)
  | .notationSystem, .literal _ => .ok (d, .closing)
  | .notationTail, .literal _ => .ok (d, .closing)
  | .notationTail, .close => .ok (d, .subset)
  | _, _ => bad

/-- A step inside of a declaration of attributes. -/
def stepAttributes (d : Declarations) (e : Expecting) (p : Placed) :
    Except Fault (Declarations × Expecting) :=
  let bad := .error (misplaced p)
  match e, p.lexeme with
  | .attributesOf, l =>
    match nameOf? l with
    | some n => .ok (d, .attributeName n.written)
    | none => bad
  | .attributeName _, .close => .ok (d, .subset)
  | .attributeName element, l =>
    match nameOf? l with
    | some n => .ok (d, .attributeType element n)
    | none => bad
  | .attributeType element a, .openParen => .ok (d, .choice element a false)
  | .attributeType element a, .name n =>
    if n = "CDATA".toList then .ok (d, .attributeStandard element a false)
    else if tokenTypes.contains (String.ofList n) then .ok (d, .attributeStandard element a true)
    else if n = "NOTATION".toList then .ok (d, .choicesOpen element a)
    else bad
  | .choicesOpen element a, .openParen => .ok (d, .choice element a true)
  | .choice element a amongNotations, l =>
    match l with
    | .name _ => .ok (d, .choiceNext element a amongNotations)
    | .qualified _ => if amongNotations then bad else .ok (d, .choiceNext element a amongNotations)
    | .nmtoken => if amongNotations then bad else .ok (d, .choiceNext element a amongNotations)
    | _ => bad
  | .choiceNext element a _, .closeParen => .ok (d, .attributeStandard element a true)
  | .choiceNext element a amongNotations, .bar => .ok (d, .choice element a amongNotations)
  | .attributeStandard element a isTokens, .keyword k =>
    match String.ofList k with
    | "IMPLIED" => .ok (d.addAttribute ⟨element, a, isTokens, none⟩, .attributeName element)
    | "REQUIRED" => .ok (d.addAttribute ⟨element, a, isTokens, none⟩, .attributeName element)
    | "FIXED" => .ok (d, .attributeFixed element a isTokens)
    | _ => bad
  | .attributeStandard element a isTokens, .literal v =>
    (declareAttribute d p ⟨element, a, isTokens, none⟩ v).map (·, .attributeName element)
  | .attributeFixed element a isTokens, .literal v =>
    (declareAttribute d p ⟨element, a, isTokens, none⟩ v).map (·, .attributeName element)
  | _, _ => bad

/-- The step in a declaration of what an element holds. -/
def stepElement (d : Declarations) (e : Expecting) (p : Placed) :
    Except Fault (Declarations × Expecting) :=
  let bad := .error (misplaced p)
  match e, p.lexeme with
  | .elementName, l => if (nameOf? l).isSome then .ok (d, .elementModel) else bad
  | .elementModel, .name n =>
    if n = "EMPTY".toList || n = "ANY".toList then .ok (d, .closing) else bad
  | .elementModel, .openParen => .ok (d, .modelFirst)
  | .modelFirst, .keyword k => if k = "PCDATA".toList then .ok (d, .mixedNext) else bad
  | .modelFirst, .openParen => .ok (d, .modelItem [none, none])
  | .modelFirst, .counted => .ok (d, .modelNext [none])
  | .modelFirst, l => if (nameOf? l).isSome then .ok (d, .modelNext [none]) else bad
  | .mixedNext, .closeParen => .ok (d, .closing)
  | .mixedNext, .closeMixed => .ok (d, .closing)
  | .mixedNext, .bar => .ok (d, .mixedName)
  | .mixedName, l => if (nameOf? l).isSome then .ok (d, .mixedAfter) else bad
  | .mixedAfter, .closeMixed => .ok (d, .closing)
  | .mixedAfter, .bar => .ok (d, .mixedName)
  | .modelItem groups, .openParen => .ok (d, .modelItem (none :: groups))
  | .modelItem groups, .counted => .ok (d, .modelNext groups)
  | .modelItem groups, l => if (nameOf? l).isSome then .ok (d, .modelNext groups) else bad
  | .modelNext groups, .closeParen => .ok (d, closed groups)
  | .modelNext groups, .closeMixed => .ok (d, closed groups)
  | .modelNext groups, .closeCounted => .ok (d, closed groups)
  | .modelNext groups, .comma =>
    match separated ',' groups with
    | some groups => .ok (d, .modelItem groups)
    | none => bad
  | .modelNext groups, .bar =>
    match separated '|' groups with
    | some groups => .ok (d, .modelItem groups)
    | none => bad
  | _, _ => bad

/-- A step outside of the document type. -/
def stepOutside (d : Declarations) (e : Expecting) (p : Placed) :
    Except Fault (Declarations × Expecting) :=
  let typeMayCome : Bool := match e with
    | .afterType => false
    | _ => true
  let next : Expecting := if typeMayCome then .beforeType else .afterType
  match p.lexeme with
  | .comment => .ok (d, next)
  | .instruction => .ok (d, next)
  | .element => .ok (d, next)
  | .declaration key =>
    if typeMayCome && key = "DOCTYPE".toList then .ok (d, .typeName) else .error (misplaced p)
  | .xmlDeclaration text =>
    match e with
    | .start =>
      match Declaration.read text with
      | .ok standsAlone => .ok ({ d with standsAlone }, .beforeType)
      | .error rest => .error ⟨.malformedDeclaration, rest.length + p.after + 2⟩
    | _ => .error (misplaced p)
  | _ => .error (misplaced p)

/-- The step of a lexeme. Blanks may stand between any two lexemes. -/
def step (d : Declarations) (e : Expecting) (p : Placed) :
    Except Fault (Declarations × Expecting) :=
  match p.lexeme with
  | .blanks =>
    .ok (d, match e with
      | .start => .beforeType
      | e => e)
  | _ =>
    match e with
    | .start | .beforeType | .afterType => stepOutside d e p
    | .entityName | .parameterName | .entityBody _ | .entityPublic _ | .entitySystem _
    | .entityTail _ | .entityFormat _ | .notationName | .notationBody | .notationPublic
    | .notationSystem | .notationTail => stepEntity d e p
    | .attributesOf | .attributeName _ | .attributeType .. | .choice .. | .choiceNext ..
    | .choicesOpen .. | .attributeStandard .. | .attributeFixed .. => stepAttributes d e p
    | .elementName | .elementModel | .modelFirst | .mixedNext | .mixedName | .mixedAfter
    | .modelItem _ | .modelNext _ => stepElement d e p
    | .typeName | .typeBody | .typePublic | .typeSystem | .typeTail | .typeEnd | .subset
    | .closing => stepType d e p

def run (d : Declarations) (e : Expecting) : List Placed → Except Fault (Declarations × Expecting)
  | [] => .ok (d, e)
  | p :: ps =>
    match step d e p with
    | .ok (d, e) => run d e ps
    | .error f => .error f

/-- The declarations of a document, and its text from the first element on. -/
def read (document : List Char) : Except Fault (Declarations × List Char) :=
  let (ls, last) := lexemes (document.length + 1) document
  match run {} .start ls with
  | .error f => .error f
  | .ok (d, _) =>
    match last with
    | .element rest => .ok (d, rest)
    | .endOfText => .error ⟨.noElement, 0⟩
    | .fault f => .error f

end Prolog

end Localization.Xml
