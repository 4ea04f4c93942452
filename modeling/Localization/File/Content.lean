import Localization.File.Tree
import Localization.Json.Reader
import Localization.Json.Shown

/-! What files hold: text in UTF-8, in which every line ends with LF once it is read, and data. -/

namespace Localization

/-- Why the contents of a file cannot be used. -/
inductive ReadFault where
  | file (f : FileFault)
  | notText (f : Utf8.Fault)
  /-- The text is no data. -/
  | notData (c : Json.Complaint) (said : String)
  deriving DecidableEq, Repr

/-- What is said of a fault of the file that a path leads to. -/
def FileFault.message (p : Path) (f : FileFault) : Text :=
  let said := match f with
    | .taken => "[Errno 17] File exists: "
    | .noFolder => "[Errno 20] Not a directory: "
    | .isFolder => "[Errno 21] Is a directory: "
    | .missing => "[Errno 2] No such file or directory: "
  .ofString said ++ Json.shownText p.toText

/-- What is said of a file whose contents cannot be used. -/
def ReadFault.message (p : Path) : ReadFault → Text
  | .file f => f.message p
  | .notText f => .ofString f.message
  | .notData _ said => .ofString said

/-- Text with LF in place of CR, and of CR and LF. -/
def plainLines : List Char → List Char
  | '\r' :: '\n' :: cs => '\n' :: plainLines cs
  | '\r' :: cs => '\n' :: plainLines cs
  | c :: cs => c :: plainLines cs
  | [] => []

namespace FileTree

/-- The text of the file that a path leads to. -/
def readText (t : FileTree) (working : Place) (p : Path) : Except ReadFault (List Char) := do
  let bytes ← (t.read working p).mapError .file
  let cs ← (Utf8.decode bytes).mapError .notText
  return plainLines cs

/-- The data in the file that a path leads to. -/
def readData (t : FileTree) (working : Place) (p : Path) (nesting : Nat := Json.usualNesting) :
    Except ReadFault Json := do
  let cs ← t.readText working p
  let text := Text.ofChars cs
  (Json.parse text nesting).mapError fun f => .notData f.complaint (f.message text)

end FileTree

end Localization
