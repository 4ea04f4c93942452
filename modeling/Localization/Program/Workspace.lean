import Localization.File.Content
import Localization.File.Discovery
import Localization.Notice
import Localization.Program.Failure
import Localization.Provider.Aws
import Localization.Provider.Azure

/-! What commands work on: a tree of files, notices given so far, and what was sent to services. A
command that fails leaves what it did before. -/

namespace Localization

/-- What a command finds and does not change. -/
structure Surroundings where
  working : Place := []
  environment : Environment := []
  azure : Provider.Azure.Service
  aws : Provider.Aws.Service
  means : Provider.Means := {}

/-- What commands change. -/
structure Workspace where
  tree : FileTree := {}
  notices : List Notice := []
  azureRequests : List Provider.Azure.Request := []
  awsRequests : List Provider.Aws.Request := []
  awsSessions : List Provider.Aws.Session := []

/-- A step of a command: it may change the workspace, and fail. -/
abbrev Task (α : Type) := ExceptT Failure (StateM Workspace) α

namespace Task

/-- The result of a computation, or its failure. -/
def ofExcept {ε α : Type} (failure : ε → Failure) (r : Except ε α) : Task α :=
  match r with
  | .ok a => pure a
  | .error e => throw (failure e)

def say (ns : List Notice) : Task Unit :=
  modifyThe Workspace fun w => { w with notices := w.notices ++ ns }

/-- The files of a kind that paths name. -/
def find (s : Surroundings) (k : FileKind) (paths : List Text) : Task (List Place) := do
  return Discovery.find (← getThe Workspace).tree s.working k paths

def readText (p : Path) : Task (List Char) := do
  ofExcept (.read p) ((← getThe Workspace).tree.readText [] p)

/-- The bundle in a file; any other value is refused. -/
def readBundle (p : Path) : Task Bundle := do
  match ← ofExcept (.read p) ((← getThe Workspace).tree.readData [] p) with
  | .object fields => return fields
  | _ => throw (.notObject p)

/-- Writes text to a file. Nothing is left in the file if the text cannot be encoded. -/
def writeText (p : Path) (t : Text) : Task Unit := do
  let chars := t.toChars?
  let w ← getThe Workspace
  let (tree, r) := w.tree.write [] p (Utf8.encode (chars.getD []))
  set { w with tree }
  ofExcept (.write p) r
  if chars.isNone then throw (.unencodable p)

def writeData (p : Path) (v : Json) : Task Unit := writeText p v.render

/-- A run of the provider that takes requests of many texts. -/
def sendAzure (run : Provider.Run Provider.Azure.Request) : Task (List (Fields Text)) := do
  modifyThe Workspace fun w => { w with azureRequests := w.azureRequests ++ run.requests }
  say run.notices
  ofExcept .provider run.result

/-- A run of the provider that takes single documents. -/
def sendAws (run : Provider.Run Provider.Aws.Request)
    (sessions : List Provider.Aws.Session) : Task (List (Fields Text)) := do
  modifyThe Workspace fun w =>
    { w with
      awsRequests := w.awsRequests ++ run.requests
      awsSessions := w.awsSessions ++ sessions }
  say run.notices
  ofExcept .provider run.result

end Task

end Localization
