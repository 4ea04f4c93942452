import Localization.File.Path
import Localization.Text.Utf8

/-! File trees: contents at places. Everything above a file is a folder, and a folder may be empty.
Nothing leads from one part of a tree to another but names and `..`. -/

namespace Localization

/-- The contents of files at their places, and the places of folders that may be empty. -/
structure FileTree where
  files : List (Place × List UInt8) := []
  folders : List Place := []
  deriving DecidableEq, Repr

inductive Standing where
  | file
  | folder
  deriving DecidableEq, Repr

/-- Why a file or a folder cannot be made, or a file not be read. -/
inductive FileFault where
  /-- A file stands where a folder should be made. -/
  | taken
  /-- A file stands where the way leads on. -/
  | noFolder
  /-- A folder stands where a file should be. -/
  | isFolder
  | missing
  deriving DecidableEq, Repr

namespace FileTree

/-- The contents of the file at a place. -/
def contents? (t : FileTree) (p : Place) : Option (List UInt8) := t.files.lookup p

def given (t : FileTree) : List Place := t.files.map (·.1) ++ t.folders

/-- A place is a folder if it was given as one or something is below it. -/
def isFolder (t : FileTree) (p : Place) : Bool :=
  p = [] || t.folders.any (p.isPrefixOf ·) || t.files.any fun f => p.isPrefixOf f.1 && p ≠ f.1

/-- What is at a place, if anything. -/
def at? (t : FileTree) (p : Place) : Option Standing :=
  if t.isFolder p then some .folder
  else if (t.contents? p).isSome then some .file
  else none

/-- The place that names lead to from a place, if every name before the last is one of a folder and
something stands at its end. -/
def locate (t : FileTree) (p : Place) : (names : List Text) → Except FileFault (Place × Standing)
  | [] =>
    match t.at? p with
    | some s => .ok (p, s)
    | none => .error .missing
  | n :: rest =>
    match t.at? p with
    | none => .error .missing
    | some .file => .error .noFolder
    | some .folder =>
      if n = Path.here then locate t p rest
      else if n = Path.above then locate t p.dropLast rest
      else locate t (p ++ [n]) rest

/-- Where a path begins if the working folder is at a place. -/
def start (working : Place) : Anchor → Place
  | .working => working
  | _ => []

/-- The place that a path leads to from a working folder. -/
def reach (t : FileTree) (working : Place) (p : Path) : Except FileFault (Place × Standing) :=
  t.locate (start working p.anchor) p.names

/-- The beginnings of a list, without the empty one, from the shortest on. -/
def beginnings {α : Type} : List α → List (List α)
  | [] => []
  | a :: as => [a] :: (beginnings as).map (a :: ·)

/-- The ways from a folder to everything below it. -/
def below (t : FileTree) (p : Place) : List (List Text) :=
  ((t.given.filter (p.isPrefixOf ·)).flatMap fun q => beginnings (q.drop p.length)).eraseDups

def names (t : FileTree) (p : Place) : List Text :=
  ((t.given.filter (p.isPrefixOf ·)).filterMap fun q => (q.drop p.length).head?).eraseDups

/-- Files with contents at a place, in place of what the file there had. -/
def putFile (p : Place) (bytes : List UInt8) :
    List (Place × List UInt8) → List (Place × List UInt8)
  | [] => [(p, bytes)]
  | f :: rest => if f.1 = p then (p, bytes) :: rest else f :: putFile p bytes rest

/-- Puts contents at a place where no folder stands. -/
def put (t : FileTree) (p : Place) (bytes : List UInt8) : FileTree :=
  { t with files := putFile p bytes t.files }

/-- Makes the folders on a way from a folder that are not there yet; `made` says whether some were
made before. Folders that have been made stay if the way ends at a file. -/
def makeFolders (t : FileTree) (made : Bool) (p : Place) :
    (names : List Text) → FileTree × Except FileFault Place
  | [] => (t, .ok p)
  | n :: rest =>
    if n = Path.above then makeFolders t made p.dropLast rest
    else
      let q := p ++ [n]
      if t.isFolder q then makeFolders t made q rest
      else if (t.contents? q).isSome then
        (t, .error (if made || rest.isEmpty then .taken else .noFolder))
      else makeFolders { t with folders := t.folders ++ [q] } true q rest

/-- Writes contents to the file that a path leads to, and makes the folders before it. -/
def write (t : FileTree) (working : Place) (p : Path) (bytes : List UInt8) :
    FileTree × Except FileFault Unit :=
  match makeFolders t false (start working p.anchor) p.names.dropLast with
  | (t, .error fault) => (t, .error fault)
  | (t, .ok folder) =>
    let place := Place.follow folder p.names.getLast?.toList
    if t.isFolder place then (t, .error .isFolder) else (t.put place bytes, .ok ())

/-- Reads the file that a path leads to. -/
def read (t : FileTree) (working : Place) (p : Path) : Except FileFault (List UInt8) := do
  match ← t.reach working p with
  | (_, .folder) => .error .isFolder
  | (place, .file) => .ok ((t.contents? place).getD [])

/-- The files of a tree that are not in another one, or have other contents there. -/
def changes (before after : FileTree) : List (Place × List UInt8) :=
  after.files.filter fun f => before.contents? f.1 ≠ some f.2

end FileTree

end Localization
