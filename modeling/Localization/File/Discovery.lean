import Localization.File.Pattern

/-! Discovery: the files of a kind that paths name. A path may lead to a file of the kind, or to a
folder, in which all of them are found, or it is a pattern. What lies in a folder of dependencies is
found only if the path leads into it. -/

namespace Localization

inductive FileKind where
  | script
  | bundle
  | exchange
  deriving DecidableEq, Repr

namespace FileKind

def bundleSuffix : Text := .ofString ".l10n.json"

/-- The name of the bundle of a package's own description. -/
def packageBundle : Text := .ofString "package.nls.json"

def scriptSuffixes : List Text := [".ts", ".tsx", ".js", ".jsx"]

/-- Whether a file with a name is of a kind. -/
def admits : FileKind → Text → Bool
  | .script, name => scriptSuffixes.any (·.isSuffixOf name)
  | .bundle, name => bundleSuffix.isSuffixOf name || name = packageBundle
  | .exchange, name => (Text.ofString ".xlf").isSuffixOf name

end FileKind

namespace Discovery

/-- The folder of packages, in which scripts are not looked for. -/
def dependencies : Text := .ofString "node_modules"

/-- The name of the file at a place. -/
def nameAt (p : Place) : Text := p.getLast?.getD []

/-- The files of a kind below a folder, but for those in folders of dependencies. -/
def inFolder (t : FileTree) (k : FileKind) (folder : Place) : List Place :=
  (t.below folder).filterMap fun names =>
    let p := folder ++ names
    if !names.contains dependencies && t.at? p = some .file && k.admits (nameAt p) then some p
    else none

/-- The files of a kind that a pattern finds, but for those found in folders of dependencies. -/
def byPattern (t : FileTree) (working : Place) (k : FileKind) (written : Text) : List Place :=
  ((Pattern.ofText written).filesOf t working).filterMap fun (names, p) =>
    if !names.contains dependencies && k.admits (nameAt p) then some p else none

/-- The files of a kind that a written path names. -/
def named (t : FileTree) (working : Place) (k : FileKind) (written : Text) : List Place :=
  let path := Path.ofText written
  match t.reach working path with
  | .ok (p, .file) => if k.admits path.name then [p] else byPattern t working k written
  | .ok (p, .folder) => inFolder t k p
  | .error _ => byPattern t working k written

/-- The files of a kind that written paths name, each of them once, in the order of places. -/
def find (t : FileTree) (working : Place) (k : FileKind) (written : List Text) : List Place :=
  (written.flatMap (named t working k)).eraseDups.mergeSort Place.le

end Discovery

end Localization
