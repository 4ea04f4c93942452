import Localization.Text.Order

/-! Paths as they are written, and the places that they lead to. A path is a beginning and names;
the name `..` leads to the folder above and stays in the path, since it depends on the files whether
the name before it is one of a folder. -/

namespace Localization

/-- Where a path begins. -/
inductive Anchor where
  | working
  | root
  /-- At the root, written with two slashes, which some systems tell apart. -/
  | doubled
  deriving DecidableEq, Repr

def Anchor.written : Anchor → Text
  | .working => []
  | .root => .ofString "/"
  | .doubled => .ofString "//"

/-- A path without empty names and without names that stand for the folder itself. -/
structure Path where
  anchor : Anchor
  names : List Text
  deriving DecidableEq, Repr

/-- A place among files: the names that lead to it from the root. -/
abbrev Place := List Text

namespace Path

def here : Text := .ofString "."

def above : Text := .ofString ".."

/-- The parts of a text between its slashes, the empty ones too. -/
def segments : Text → List Text
  | [] => [[]]
  | p :: t =>
    if p.isChar '/' then [] :: segments t
    else match segments t with
      | [] => [[p]]
      | s :: rest => (p :: s) :: rest

/-- Where a written path begins: two slashes are told apart from one and from more. -/
def anchorOf (t : Text) : Anchor :=
  match (t.takeWhile (CodePoint.isChar '/')).length with
  | 0 => .working
  | 2 => .doubled
  | _ => .root

/-- The path that a text writes, without empty parts and parts that stay where they are. -/
def ofText (t : Text) : Path :=
  ⟨anchorOf t, (segments t).filter fun s => s ≠ [] && s ≠ here⟩

/-- A path as it is written. -/
def toText (p : Path) : Text :=
  match p.anchor, p.names with
  | .working, [] => here
  | a, names => a.written ++ Text.join [.char '/'] names

def name (p : Path) : Text := p.names.getLast?.getD []

def parent (p : Path) : Path := { p with names := p.names.dropLast }

/-- A path that is followed from the end of another one, unless it begins at the root. -/
def append (p q : Path) : Path :=
  match q.anchor with
  | .working => { p with names := p.names ++ q.names }
  | _ => q

instance : Append Path := ⟨append⟩

/-- The suffix of a name, with its dot: nothing if the only dots stand at the beginning or the
end. -/
def suffix (name : Text) : Text :=
  let last := (name.reverse.takeWhile fun p => !p.isChar '.').reverse
  if last.isEmpty || name.length ≤ last.length + 1 then [] else .char '.' :: last

/-- The path that begins at the root and leads to a place. -/
def ofPlace (place : Place) : Path := ⟨.root, place⟩

end Path

/-- Why a text can be the name of no file. -/
inductive NameFault where
  /-- A surrogate stands for nothing that can be part of a name. -/
  | surrogate
  | null
  deriving DecidableEq, Repr

namespace Place

/-- What is wrong with a name. A surrogate from U+DC80 to U+DCFF may stand alone: it stands for a
byte that is part of no character. -/
def nameFault? (name : Text) : Option NameFault :=
  let isBad : CodePoint → Bool
    | .surrogate n => !(0x480 ≤ n.val && n.val < 0x500)
    | .char _ => false
  if name.any isBad then some .surrogate
  else if name.any (CodePoint.isChar '\x00') then some .null
  else none

/-- The place that names lead to if each of them is the name of a folder. -/
def follow (place : Place) (names : List Text) : Place :=
  names.foldl (fun p n => if n = Path.above then p.dropLast else p ++ [n]) place

/-- The place that a path leads to from a working folder, whatever files there are. -/
def resolve (working : Place) (p : Path) : Except NameFault Place :=
  match p.names.findSome? nameFault? with
  | some fault => .error fault
  | none => .ok (match p.anchor with
    | .working => follow working p.names
    | _ => follow [] p.names)

/-- Whether a place comes no later than another one: name by name, in the order of code points. -/
def le : Place → Place → Bool
  | [], _ => true
  | _ :: _, [] => false
  | a :: as, b :: bs => if a = b then le as bs else Text.leByCodePoint a b

end Place

end Localization
