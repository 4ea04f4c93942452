import Localization.Xml.NameData

/-! Characters of documents, and names with an optional qualifier before a colon. -/

namespace Localization.Xml

def inRanges (ranges : List (Nat × Nat)) (c : Char) : Bool :=
  ranges.any fun r => r.1 ≤ c.toNat && c.toNat ≤ r.2

def isNameStart (c : Char) : Bool :=
  c.isAlpha || c == '_' || 0x80 ≤ c.toNat && inRanges letterRanges c

def isNameChar (c : Char) : Bool :=
  isNameStart c || c.isDigit || c == '-' || c == '.' || 0x80 ≤ c.toNat && inRanges innerRanges c

def isBlank (c : Char) : Bool := c == ' ' || c == '\t' || c == '\n' || c == '\r'

/-- A character that a document may hold. -/
def isLegal (c : Char) : Bool :=
  (0x20 ≤ c.toNat || c == '\t' || c == '\n' || c == '\r') && c.toNat != 0xFFFE && c.toNat != 0xFFFF

/-- The character with a number, if a document may hold it. -/
def numbered? (n : Nat) : Option Char :=
  if h : n.isValidChar then
    let c := Char.ofNatAux n h
    if isLegal c then some c else none
  else none

structure Name where
  qualifier : Option (List Char) := none
  base : List Char
  deriving DecidableEq, Repr

def Name.written (n : Name) : List Char :=
  match n.qualifier with
  | some q => q ++ ':' :: n.base
  | none => n.base

end Localization.Xml
