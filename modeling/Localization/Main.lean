import Localization.Program.Outcome

/-! The command line: takes the files below the working folder, and those that the arguments name,
runs the program on them, and writes what has changed. No service can be reached from here. -/

namespace Localization.Main

def placeOf (written : String) : Place := (Path.ofText (.ofString written)).names

/-- Text for the console. What has no characters shows as U+FFFD. -/
def shown (t : Text) : String := String.ofList (Provider.plainChars t)

def writtenPlace (p : Place) : String := shown (Path.ofPlace p).toText

/-- What an argument says before its first wildcard. -/
def plainStart (argument : String) : String :=
  let plain := argument.toList.takeWhile fun c => c ≠ '*' && c ≠ '?' && c ≠ '['
  if plain.length = argument.length then argument
  else String.ofList (plain.reverse.dropWhile (· ≠ '/')).reverse

/-- Adds what stands at an absolute path to a tree, but for folders of dependencies below it. -/
partial def load (t : FileTree) (written : String) : IO FileTree := do
  let path := (← IO.currentDir) / written
  if ← path.isDir then
    let mut tree := { t with folders := placeOf written :: t.folders }
    for entry in ← path.readDir do
      if Text.ofString entry.fileName ≠ Discovery.dependencies then
        tree ← load tree (written ++ "/" ++ entry.fileName)
    return tree
  else if ← path.pathExists then
    return t.put (placeOf written) (← IO.FS.readBinFile path).toList
  else return t

/-- The absolute path without detours that an argument leads to. -/
def absolute (working : Place) (argument : String) : String :=
  match Place.resolve working (Path.ofText (.ofString (plainStart argument))) with
  | .ok place => writtenPlace place
  | .error _ => writtenPlace working

/-- Makes the folders and files that a run has made or changed. -/
def save (before after : FileTree) : IO Unit := do
  let root ← IO.currentDir
  for folder in after.folders do
    if !before.isFolder folder then IO.FS.createDirAll (root / writtenPlace folder)
  for (place, bytes) in before.changes after do
    IO.FS.writeBinFile (root / writtenPlace place) (ByteArray.mk bytes.toArray)

/-- The variables that the program knows, with their values. -/
def environment : IO Environment := do
  let names := [AzureSettings.keyVariable, AzureSettings.regionVariable,
    AwsSettings.accessKeyVariable, AwsSettings.secretKeyVariable]
  let values ← names.mapM fun name => do
    return (← IO.getEnv name).map fun value => (Text.ofString name, Text.ofString value)
  return values.reduceOption

end Localization.Main

open Localization Localization.Main in
/-- Reads what the arguments name into a tree, runs the program on it and writes what it changed. -/
def main (arguments : List String) : IO UInt32 := do
  let folder := (← IO.currentDir).toString
  let working := placeOf folder
  let named := arguments.map (absolute working)
  let mut tree ← load {} folder
  for written in named do
    if !tree.isFolder (placeOf written) then tree ← load tree written
  let unreachable : Text := .ofString "no connection"
  let surroundings : Surroundings :=
    { working, environment := ← environment
      azure := fun _ => .unreachable unreachable
      aws := fun _ => .error (.unreachable unreachable) }
  let outcome := Program.run surroundings tree (arguments.map Text.ofString)
  save tree outcome.workspace.tree
  for line in outcome.errorLines do
    IO.eprintln (shown line)
  IO.print (shown outcome.output)
  return UInt32.ofNat outcome.exitCode
