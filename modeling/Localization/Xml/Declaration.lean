import Localization.Xml.Token

/-! The declaration with which a document can begin: its version, and perhaps its encoding and
whether it stands alone. -/

namespace Localization.Xml.Declaration

/-- An item of a declaration, with the characters at its name and at its value. -/
structure Item where
  name : List Char
  value : List Char
  atName : List Char
  atValue : List Char

def isValueChar (c : Char) : Bool := c.isAlphanum || c == '.' || c == '-' || c == '_'

/-- The value of an item after its equals sign; an error gives the characters where it shows. -/
def readValue (name atName cs : List Char) : Except (List Char) (Item × List Char) :=
  match skipBlanks cs with
  | quote :: rest =>
    if quote = '"' || quote = '\x27' then
      match rest.span isValueChar with
      | (value, c :: more) =>
        if c = quote then .ok (⟨name, value, atName, rest⟩, more) else .error (c :: more)
      | (_, []) => .error []
    else .error (quote :: rest)
  | [] => .error []

/-- The next item, after blanks; none at the end. -/
def readItem (cs : List Char) : Except (List Char) (Option Item × List Char) :=
  match cs with
  | [] => .ok (none, cs)
  | c :: _ =>
    if !isBlank c then .error cs
    else
      match skipBlanks cs with
      | [] => .ok (none, cs)
      | atName =>
        let (name, rest) := atName.span fun c => c ≠ '=' && !isBlank c && c.toNat < 0x80
        let rest := match rest with
          | d :: _ => if isBlank d then skipBlanks rest else rest
          | [] => []
        match rest with
        | '=' :: more =>
          if name.isEmpty then .error atName
          else (readValue name atName more).map fun r => (some r.1, r.2)
        | rest => .error rest

/-- Whether a document stands alone, from what is left of its declaration after the encoding. -/
def readStandalone (item : Option Item) (rest : List Char) : Except (List Char) Bool :=
  match item with
  | none => .ok false
  | some i =>
    if i.name ≠ "standalone".toList then .error i.atName
    else if i.value ≠ "yes".toList && i.value ≠ "no".toList then .error i.atValue
    else
      match skipBlanks rest with
      | [] => .ok (i.value = "yes".toList)
      | rest => .error rest

/-- Whether a document stands alone, from the text of its declaration. -/
def read (cs : List Char) : Except (List Char) Bool := do
  let (item, rest) ← readItem cs
  match item with
  | none => .error cs
  | some version =>
    if version.name ≠ "version".toList then .error version.atName
    else
      let (item, rest) ← readItem rest
      match item with
      | some encoding =>
        if encoding.name ≠ "encoding".toList then readStandalone item rest
        else if !(encoding.value.head?.any Char.isAlpha) then .error encoding.atValue
        else
          let (item, rest) ← readItem rest
          readStandalone item rest
      | none => .ok false

end Localization.Xml.Declaration
