import Localization.File.Content
import Localization.Notice

/-! The manifest of a package, which tells the folder of its bundles, and the folder in which a new
bundle is written. -/

namespace Localization.Manifest

/-- Why there is no folder for a bundle. -/
inductive Fault where
  | name (f : NameFault)
  /-- An array or an object stands in more others than are read. -/
  | deep (what : String)
  | notObject
  /-- The entry with the folder is no text. -/
  | notText
  deriving DecidableEq, Repr

/-- Where notices about manifests come from. -/
def source : String := "l10ndev.files"

/-- The name of a manifest. -/
def fileName : Text := .ofString "package.json"

/-- The entry with the folder of the bundles. -/
def entryName : Text := .ofString "l10n"

/-- The notice that a manifest cannot be used. -/
def unreadableNotice (p : Path) (f : ReadFault) : Notice :=
  ⟨.debug, source, .ofString "Ignoring unreadable " ++ p.toText ++ .ofString ": " ++ f.message p⟩

/-- The notice that nothing tells where to write. -/
def nowhereNotice : Notice :=
  ⟨.debug, source, .ofString "No package.json found in directory and no outDir specified."⟩

/-- The notice that a bundle is not written where the manifest says. -/
def mismatchNotice : Notice :=
  ⟨.warning, source, .ofString ("The l10n property in the package.json does not match the " ++
    "outDir specified. For an extension to work correctly, l10n must be set to the location of " ++
    "the bundle files.")⟩

/-- The manifest in a directory; nothing if there is none that can be used, or if it is null. Only
one that is nested too deeply cannot be passed over. -/
def load (t : FileTree) (working : Place) (directory : Path) (nesting : Nat) :
    Except Fault (Option Json) × List Notice :=
  let path := directory ++ Path.ofText fileName
  match t.readData working path nesting with
  | .ok .null => (.ok none, [])
  | .ok v => (.ok (some v), [])
  | .error (.file .missing) => (.ok none, [])
  | .error (.notData (.deep what) _) => (.error (.deep what), [])
  | .error f => (.ok none, [unreadableNotice path f])

/-- The folder that a manifest names; nothing if it names none. -/
def entry : Json → Except Fault (Option Text)
  | .object fields =>
    match Fields.get? entryName fields with
    | none => .ok none
    | some v =>
      if !v.isPresent then .ok none
      else match v with
        | .string folder => .ok (some folder)
        | _ => .error .notText
  | _ => .error .notObject

/-- The place of a folder that is written in a manifest or on a command line. -/
def resolve (working : Place) (directory : Path) (folder : Text) : Except Fault Place :=
  (Place.resolve working (directory ++ Path.ofText folder)).mapError .name

/-- The folder that is asked for, and whether the manifest names another one or none. -/
def asked (working : Place) (directory : Path) (manifest : Json) (folder : Text) :
    Except Fault (Place × Bool) := do
  if let .object _ := manifest then
    let place ← resolve working directory folder
    match ← entry manifest with
    | none => return (place, true)
    | some own => return (place, (← resolve working directory own) ≠ place)
  else throw .notObject

/-- The folder in which a new bundle is written: the one that is asked for, else the one that the
manifest names, else the manifest's own; nothing if there is no manifest either. -/
def exportFolder (t : FileTree) (working : Place) (directory : Path) (folder : Option Text)
    (nesting : Nat := Json.usualNesting) : Except Fault (Option Place) × List Notice :=
  let (manifest, notices) := load t working directory nesting
  match manifest, folder.filter (!·.isEmpty) with
  | .error fault, _ => (.error fault, notices)
  | .ok none, none => (.ok none, notices ++ [nowhereNotice])
  | .ok none, some folder => ((resolve working directory folder).map some, notices)
  | .ok (some manifest), none =>
    let own := (entry manifest).bind fun own => resolve working directory (own.getD Path.here)
    (own.map some, notices)
  | .ok (some manifest), some folder =>
    match asked working directory manifest folder with
    | .ok (place, mismatch) =>
      (.ok (some place), notices ++ if mismatch then [mismatchNotice] else [])
    | .error fault => (.error fault, notices)

end Localization.Manifest
